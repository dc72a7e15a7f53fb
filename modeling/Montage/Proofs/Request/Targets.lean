import Montage.Proofs.Edit.Changes
import Montage.Proofs.Request.Batch

/-!
# Requests for several clips

A request to silence clips or to show them through a filter names its target by an id or
by a word. What a target means is told without looking at how it is resolved. The edits
are made for the timeline that the request meets and applied one after the other: in the
end exactly the clips that are meant have changed.
-/

namespace Montage

open Outcome

namespace Target

/-- The words that stand for clips instead of naming one. -/
def words : List Text := ["all", "track1", "focused", "first"]

/-- The first clip of the main track, or of the overlay track when there is none. -/
def IsFirst (timeline : Timeline) (clip : Clip) : Prop :=
  timeline.main.head? = some clip ∨ timeline.main = [] ∧ timeline.overlay.head? = some clip

/-- A target means a clip. -/
@[mk_iff]
inductive Means (timeline : Timeline) (focused target : Value) (clip : Clip) : Prop
  /-- Every clip is meant. -/
  | all (word : target = .text "all") (mem : clip ∈ timeline.clips)
  /-- The clips of the overlay track are meant. -/
  | overlayTrack (word : target = .text "track1") (mem : clip ∈ timeline.overlay)
  /-- The focused clip is meant. -/
  | focused (word : target = .text "focused") (given : focused.truthy = true)
    (mem : clip ∈ timeline.clips) (named : clip.id.equal focused = true)
  /-- No clip is focused, and the first one is meant. -/
  | unfocused (word : target = .text "focused")
    (absent : focused.truthy = true → ∀ other ∈ timeline.clips, other.id.equal focused = false)
    (first : IsFirst timeline clip)
  /-- The first clip is meant. -/
  | first (word : target = .text "first") (first : IsFirst timeline clip)
  /-- The clip with an id is meant. -/
  | named (plain : target.isOneOf words = false) (mem : clip ∈ timeline.clips)
    (named : clip.id.equal target = true)

variable {timeline : Timeline} {focused target : Value} {clip : Clip}

/-- The first clip is on the timeline. -/
theorem IsFirst.mem (first : IsFirst timeline clip) : clip ∈ timeline.clips := by
  rcases first with h | ⟨_, h⟩
  · exact List.mem_append_left _ (List.mem_of_mem_head? h)
  · exact List.mem_append_right _ (List.mem_of_mem_head? h)

/-- Only clips of the timeline are meant. -/
theorem Means.mem (means : Means timeline focused target clip) : clip ∈ timeline.clips := by
  cases means with
  | all _ mem => exact mem
  | overlayTrack _ mem => exact List.mem_append_right _ mem
  | focused _ _ mem _ => exact mem
  | unfocused _ _ first => exact first.mem
  | first _ first => exact first.mem
  | named _ mem _ => exact mem

/-- The clip to fall back on is the first one. -/
theorem isFirst_iff : IsFirst timeline clip ↔ timeline.clips.head? = some clip := by
  cases h : timeline.main <;> simp [IsFirst, Timeline.clips, h]

/-- What a target comes to: the clips that it means, unless it means none. -/
inductive Resolves (timeline : Timeline) (focused target : Value) :
    Outcome (List Clip) → Prop
  /-- The clips that are meant are named. -/
  | clips {clips : List Clip} (mem : ∀ clip, clip ∈ clips ↔ Means timeline focused target clip) :
      Resolves timeline focused target (.ok clips)
  /-- No clip is meant. -/
  | none {why : Rejection} (none : ∀ clip, ¬ Means timeline focused target clip) :
      Resolves timeline focused target (.error (.rejected why))

/-- A target that means the first clip comes to it. -/
theorem resolves_firstClip
    (h : ∀ clip, Means timeline focused target clip ↔ IsFirst timeline clip) :
    Resolves timeline focused target (do return [← firstClip timeline]) := by
  simp only [isFirst_iff] at h
  unfold firstClip
  cases hhead : timeline.clips.head? with
  | none => exact .none fun clip means => by simp [h, hhead] at means
  | some first => exact .clips fun clip => by simp [h, hhead, eq_comm]

/-- A target that means the clip with an id comes to it. -/
theorem resolves_require (orderly : timeline.Orderly) {id : Value}
    (h : ∀ clip, Means timeline focused target clip ↔
      clip ∈ timeline.clips ∧ clip.id.equal id = true) :
    Resolves timeline focused target (do return [← timeline.require id]) := by
  unfold Timeline.require
  cases hfind : timeline.find? id with
  | none =>
    refine .none fun clip means => ?_
    obtain ⟨mem, hid⟩ := (h clip).mp means
    rw [Timeline.find?_eq_none_iff.mp hfind clip mem] at hid
    cases hid
  | some found =>
    have hmem := List.mem_of_find?_eq_some hfind
    have hid := List.find?_some hfind
    refine .clips fun clip => ?_
    rw [h, List.mem_singleton]
    constructor
    · rintro rfl
      exact ⟨hmem, hid⟩
    · rintro ⟨mem, hclip⟩
      exact orderly.eq_of_equal mem hmem (Value.equal_trans hclip (by rwa [Value.equal_comm]))

/-- The word for the focused clip means that clip, or the first one when there is none. -/
theorem means_focused : Means timeline focused (.text "focused") clip ↔
    (focused.truthy = true ∧ clip ∈ timeline.clips ∧ clip.id.equal focused = true) ∨
      (focused.truthy = true → timeline.find? focused = none) ∧ IsFirst timeline clip := by
  simp +decide [means_iff, Timeline.find?_eq_none_iff]

/-- The word for the focused clip comes to that clip, or to the first one when there is
none. -/
theorem resolves_focused (orderly : timeline.Orderly) :
    Resolves timeline focused (.text "focused")
      (match focusedClip? timeline focused with
      | some clip => .ok [clip]
      | none => do return [← firstClip timeline]) := by
  unfold focusedClip?
  by_cases given : focused.truthy = true
  · rw [if_pos given]
    cases hfind : timeline.find? focused with
    | none =>
      refine resolves_firstClip fun clip => means_focused.trans ⟨?_, fun first => ?_⟩
      · rintro (⟨_, mem, named⟩ | ⟨_, first⟩)
        · rw [Timeline.find?_eq_none_iff.mp hfind clip mem] at named
          cases named
        · exact first
      · exact .inr ⟨fun _ => hfind, first⟩
    | some found =>
      have hfound : timeline.require focused = .ok found := orFault_eq_ok.mpr hfind
      have resolves : Resolves timeline focused (.text "focused")
          (do return [← timeline.require focused]) := by
        refine resolves_require orderly fun clip =>
          means_focused.trans ⟨?_, fun named => .inl ⟨given, named⟩⟩
        rintro (⟨_, named⟩ | ⟨absent, _⟩)
        · exact named
        · cases hfind.symm.trans (absent given)
      rwa [hfound] at resolves
  · rw [if_neg given]
    refine resolves_firstClip fun clip => ?_
    simp [means_focused, given]

/-- On an orderly timeline a target comes to the clips that it means. -/
theorem resolves_named (orderly : timeline.Orderly) (target focused : Value) :
    Resolves timeline focused target (named timeline target focused) := by
  have hword {t : Text} (h : target.equal (.text t) = true) : target = .text t :=
    Value.eq_text_of_equal h
  unfold named
  by_cases hall : target.equal (.text "all") = true
  · rw [if_pos hall, hword hall]
    exact .clips fun clip => by simp +decide [means_iff]
  rw [if_neg hall]
  by_cases hoverlay : target.equal (.text "track1") = true
  · rw [if_pos hoverlay, hword hoverlay]
    exact .clips fun clip => by simp +decide [means_iff]
  rw [if_neg hoverlay]
  by_cases hfocused : target.equal (.text "focused") = true
  · rw [if_pos hfocused, hword hfocused]
    exact resolves_focused orderly
  rw [if_neg hfocused]
  by_cases hfirst : target.equal (.text "first") = true
  · rw [if_pos hfirst, hword hfirst]
    exact resolves_firstClip fun clip => by simp +decide [means_iff]
  rw [if_neg hfirst]
  have hplain : target.isOneOf words = false := by
    simp [Value.isOneOf, words, hall, hoverlay, hfocused, hfirst]
  have hne {t : Text} (h : ¬ target.equal (.text t) = true) : target ≠ .text t := by
    rintro rfl
    simp at h
  refine resolves_require orderly fun clip => ?_
  simp [means_iff, hplain, hne hall, hne hoverlay, hne hfocused, hne hfirst]

/-- On an orderly timeline a target that is accepted comes to the clips that it means, and
one that is not means none. -/
theorem resolves (orderly : timeline.Orderly) (target focused : Value) :
    Resolves timeline focused target (resolve timeline target focused) := by
  have hnamed := resolves_named orderly target focused
  unfold resolve
  generalize named timeline target focused = outcome at hnamed ⊢
  cases hnamed with
  | none none => exact .none none
  | @clips clips mem =>
    rw [ok_bind]
    split
    · next hempty =>
      rw [List.isEmpty_iff.mp hempty] at mem
      exact .none fun clip means => by simpa using (mem clip).mpr means
    · exact .clips mem

end Target

namespace Drawing

variable {α β : Type} {outcome : Outcome α} {f : α → Drawing β}

/-- An outcome in front of more is what follows it. -/
theorem run_ofOutcome_bind {a : α} (h : outcome = .ok a) (supply : Supply) :
    (ofOutcome outcome >>= f).run.run supply = (f a).run.run supply := by
  rw [h]
  exact Work.run_bind_of_ok rfl

/-- It ends where what follows it does. -/
theorem ends_ofOutcome_bind {a : α} (h : outcome = .ok a) {supply : Supply}
    {post : Outcome β → Supply → Prop} (next : Work.Ends (f a) supply post) :
    Work.Ends (ofOutcome outcome >>= f) supply post :=
  Work.ends_bind_of_ok (congrArg (·, supply) h) next

end Drawing

namespace Request

/-- What a request for a change is aimed at. -/
inductive Aim where
  /-- The clips that a target means. -/
  | clips (target : Value)
  /-- The whole overlay track. -/
  | overlayTrack

namespace Aim

/-- The request is meant for a clip. -/
def Means (timeline : Timeline) (focused : Value) : Aim → Clip → Prop
  | .clips target, clip => Target.Means timeline focused target clip
  | .overlayTrack, clip => clip ∈ timeline.overlay

/-- The clips that a request is meant for. -/
def resolve (timeline : Timeline) (focused : Value) : Aim → Outcome (List Clip)
  | .clips target => Target.resolve timeline target focused
  | .overlayTrack => .ok timeline.overlay

end Aim

/-- A request asks for a change of the clips that it is aimed at. -/
inductive Asks (request : Request) : Aim → Change → Prop
  /-- Clips are silenced, or heard if the request says so. -/
  | mute {target muted : Value} (named : request.kind = .ok .setMute)
      (aimed : request.target = .ok target)
      (given : request.argument "muted" (.bool true) = .ok muted) :
      Asks request (.clips target) (.mute muted.truthy)
  /-- Clips are shown through a filter. Two names stand for none. -/
  | filter {target name : Value} (named : request.kind = .ok .applyFilter)
      (aimed : request.target = .ok target) (given : request.argument "filter" .null = .ok name) :
      Asks request (.clips target)
        (.filter (if name.isOneOf ["", "none"] then .null else name))
  /-- The overlay track is shown without colours, or with them if the request says so. -/
  | blackAndWhite {enable : Value} (named : request.kind = .ok .blackAndWhite)
      (given : request.argument "enable" (.bool true) = .ok enable) :
      Asks request .overlayTrack
        (.filter (if isFalse enable then .null else .text "grayscale"))

variable {request : Request} {timeline : Timeline} {focused : Value} {aim : Aim} {change : Change}

/-- The edits of the clips that the target of a request means, with one argument. -/
theorem run_targets {target value default : Value} {name : Text}
    (aimed : request.target = .ok target) (given : request.argument name default = .ok value)
    (edit : Value → Clip → Edit) (supply : Supply) :
    (do
      let clips ← Drawing.ofOutcome do Target.resolve timeline (← request.target) focused
      let value ← Drawing.ofOutcome (request.argument name default)
      return clips.map (edit value) : Drawing (List Edit)).run.run supply =
      (do return (← Target.resolve timeline target focused).map (edit value), supply) := by
  rw [aimed, ok_bind]
  cases Target.resolve timeline target focused with
  | error fault => rfl
  | ok clips =>
    rw [Drawing.run_ofOutcome_bind rfl, Drawing.run_ofOutcome_bind given]
    rfl

/-- The edits of a request for a change make it to the clips that the request is meant for. -/
theorem Asks.run_edits (asks : request.Asks aim change) (supply : Supply) :
    (edits timeline request focused).run.run supply =
      (do return (← aim.resolve timeline focused).map fun clip => change.edit clip.id, supply) := by
  unfold edits
  cases asks with
  | mute named aimed given =>
    rw [Drawing.run_ofOutcome_bind named]
    exact run_targets aimed given (fun muted clip => .mute clip.id muted.truthy) supply
  | filter named aimed given =>
    rw [Drawing.run_ofOutcome_bind named]
    exact run_targets aimed given (fun name clip => .filterNamed clip.id name) supply
  | blackAndWhite named given =>
    rw [Drawing.run_ofOutcome_bind named, Drawing.run_ofOutcome_bind given, Aim.resolve, ok_bind]
    rfl

/-- The request does what its edits do one after the other. -/
theorem Asks.run_applyOne (asks : request.Asks aim change) (supply : Supply) :
    (applyOne timeline request focused).run.run supply =
      (do
        let clips ← aim.resolve timeline focused
        Edit.applyAll (clips.map fun clip => change.edit clip.id) timeline, supply) := by
  have hedits : (edits timeline request focused).run.run supply = _ := asks.run_edits supply
  unfold applyOne
  cases hclips : aim.resolve timeline focused with
  | error fault =>
    rw [hclips] at hedits
    exact Work.run_bind_of_error hedits
  | ok clips =>
    rw [hclips] at hedits
    exact (Work.run_bind_of_ok hedits).trans rfl

/-- What a request for a change comes to. -/
inductive Touches (timeline : Timeline) (focused : Value) (aim : Aim) (change : Change) :
    Outcome Timeline → Prop
  /-- The clips that are meant have changed, and nothing else has. -/
  | changed {result : Timeline} (known : change.Known)
      (aimed : aim = .overlayTrack ∨ ∃ clip, aim.Means timeline focused clip)
      (isOpen : ∀ clip, aim.Means timeline focused clip → clip.IsOpen)
      (turns : change.Turns (aim.Means timeline focused) timeline result) :
      Touches timeline focused aim change (.ok result)
  /-- The target means no clip. -/
  | missed {target : Value} {why : Rejection} (aimed : aim = .clips target)
      (none : ∀ clip, ¬ aim.Means timeline focused clip) :
      Touches timeline focused aim change (.error (.rejected why))
  /-- There is no such filter. -/
  | unknown {name : Value} (asked : change = .filter name) (unknown : ¬ change.Known)
      (some : ∃ clip, aim.Means timeline focused clip) :
      Touches timeline focused aim change (.error (.rejected (.filterUnknown name)))
  /-- A clip that is meant cannot be changed. -/
  | barred {clip : Clip} {fault : Fault} (known : change.Known)
      (meant : aim.Means timeline focused clip) (bars : clip.Bars fault) :
      Touches timeline focused aim change (.error fault)

/-- Once the clips that are meant are known, the request comes to what their changes come to. -/
theorem Touches.of_clips (steady : timeline.Steady) {clips : List Clip}
    (mem : ∀ clip, clip ∈ clips ↔ aim.Means timeline focused clip)
    (aimed : aim = .overlayTrack ∨ ∃ clip, aim.Means timeline focused clip)
    (some : ¬ change.Known → clips ≠ [])
    (among : ∀ clip ∈ clips, clip ∈ timeline.clips) :
    Touches timeline focused aim change
      (Edit.applyAll (clips.map fun clip => change.edit clip.id) timeline) := by
  have hmeans : (· ∈ clips) = aim.Means timeline focused := funext fun clip => propext (mem clip)
  by_cases known : change.Known
  · have ends := Change.ends_of_applyAll steady known fun clip hclip =>
      Timeline.has_of_mem (among clip hclip)
    generalize Edit.applyAll _ _ = outcome at ends ⊢
    cases ends with
    | made isOpen =>
      refine .changed known aimed (fun clip means => isOpen clip ((mem clip).mpr means)) ?_
      rw [← hmeans]
      exact Change.turns_map_onNamed steady.toOrderly among isOpen
    | barred target bars => exact .barred known ((mem _).mp target) bars
  · cases change with
    | mute muted => exact absurd trivial known
    | filter name =>
      obtain ⟨first, rest, rfl⟩ := List.exists_cons_of_ne_nil (some known)
      rw [List.map_cons, Edit.applyAll_cons, Change.apply_of_unknown known, error_bind]
      exact .unknown rfl known ⟨first, (mem first).mp List.mem_cons_self⟩

/-- Requests for the overlay track ask for filters that are known. -/
theorem Asks.known_of_overlayTrack (asks : request.Asks .overlayTrack change) : change.Known := by
  cases asks with
  | @blackAndWhite enable named given =>
    cases isFalse enable with
    | true => exact .inl rfl
    | false => exact .inr (by decide)

/-- On a checked timeline that layout leaves unchanged a request for a change draws nothing
and changes exactly the clips that it is meant for. It fails only if the filter is not
known, if the target means no clip, or at a clip whose name is not-a-number or whose track
is stored as a double. -/
theorem touches_of_checked (checked : timeline.checkInvariants = .ok ())
    (settled : timeline.Settled) (asks : request.Asks aim change) (focused : Value)
    (supply : Supply) :
    Work.Ends (applyOne timeline request focused) supply fun outcome after =>
      Touches timeline focused aim change outcome ∧ after = supply := by
  have steady := Timeline.steady_of_checked checked settled
  refine Work.ends_of_run (asks.run_applyOne supply) ⟨?_, rfl⟩
  cases aim with
  | overlayTrack =>
    refine Touches.of_clips steady (fun clip => Iff.rfl) (.inl rfl)
      (fun unknown => absurd asks.known_of_overlayTrack unknown) ?_
    exact fun clip hclip => List.mem_append_right _ hclip
  | clips target =>
    have resolves := Target.resolves steady.toOrderly target focused
    rw [Aim.resolve]
    cases hclips : Target.resolve timeline target focused with
    | error fault =>
      rw [hclips] at resolves
      cases resolves with
      | none none => exact .missed rfl none
    | ok clips =>
      rw [hclips] at resolves
      have some := Target.ne_nil_of_resolve hclips
      obtain ⟨mem⟩ := resolves
      obtain ⟨clip, hclip⟩ := List.exists_mem_of_ne_nil clips some
      exact Touches.of_clips steady mem (.inr ⟨clip, (mem clip).mp hclip⟩) (fun _ => some)
        fun clip hclip => ((mem clip).mp hclip).mem

/-- A request to silence all clips. -/
def silence : Request := ⟨.text "setMute", .record [("clipId", .text "all")]⟩

/-- It asks for all clips to be silenced. -/
theorem silence_asks : silence.Asks (.clips (.text "all")) (.mute true) :=
  Asks.mute rfl rfl (show silence.argument "muted" (.bool true) = .ok (.bool true) from rfl)

/-- Both clips of the pair are silenced. -/
theorem touches_of_pair :
    ((applyOne Edit.pair silence .null).run.run dice).1 =
      .ok ⟨[{ Edit.former with muted := .bool true }, { Edit.latter with muted := .bool true }],
        []⟩ := by
  have touches := (touches_of_checked Edit.pair_checked Edit.pair_wellFormed.settled silence_asks
    .null dice).1
  obtain ⟨result, after, hrun⟩ := Work.exists_of_isOk
    (show ((applyOne Edit.pair silence .null).run.run dice).1.isOk = true by decide +kernel)
  rw [hrun] at touches ⊢
  cases touches with
  | changed known aimed isOpen turns =>
    have hmeans (clip : Clip) (h : clip ∈ Edit.pair.clips) :
        Aim.Means Edit.pair .null (.clips (.text "all")) clip := .all rfl h
    obtain ⟨main, overlay⟩ := result
    have hmain := turns .main
    have hoverlay := turns .overlay
    simp only [Timeline.on, Edit.pair, List.forall₂_cons_left_iff, List.forall₂_nil_left_iff]
      at hmain hoverlay
    obtain ⟨first, _, ⟨hfirst, _⟩, ⟨second, _, ⟨hsecond, _⟩, rfl, rfl⟩, rfl⟩ := hmain
    rw [hfirst (hmeans _ (by simp [Edit.pair, Timeline.clips])),
      hsecond (hmeans _ (by simp [Edit.pair, Timeline.clips])), hoverlay]
    rfl

/-- A clip that holds its track as a double is meant by the same request, but it is not
silenced. -/
theorem illTyped_of_silenced :
    Edit.doubled.checkInvariants = .ok () ∧ Edit.doubled.Settled ∧
      silence.Asks (.clips (.text "all")) (.mute true) ∧
      (∃ clip, Target.Means Edit.doubled .null (.text "all") clip) ∧
      ((applyOne Edit.doubled silence .null).run.run dice).1 = .error .illTyped := by
  have hwell : Edit.doubled.WellFormed := by decide +kernel
  exact ⟨Edit.doubled_checked, hwell.settled, silence_asks, ⟨_, .all rfl List.mem_cons_self⟩,
    eq_illTyped_of_failsAs (by decide +kernel)⟩

end Request

end Montage
