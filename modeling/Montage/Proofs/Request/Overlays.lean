import Montage.Proofs.Request.Targets

/-!
# Requests for overlays

A request for overlays describes each of them by its image, and the first one is made. It
comes to lie over a clip of the main track: the one that the target means, or the first
one when the target means a clip of the overlay track or is a word for several clips. The
place within the frame is drawn at random. The other overlays and clips stay as they are.
-/

namespace Montage

open Outcome

namespace Timeline

variable {timeline : Timeline}

/-- The timeline with one more overlay over the clip with a name. -/
def withOverlay (timeline : Timeline) (id : Value) (overlay : Overlay) : Timeline :=
  timeline.map fun clip =>
    if clip.id.equal id then { clip with overlays := clip.overlays ++ [overlay] } else clip

/-- An overlay changes no times, so layout has nothing to do where it had nothing to do
before. -/
theorem Settled.withOverlay (settled : timeline.Settled) (moments : timeline.HasMoments)
    (id : Value) (overlay : Overlay) : (timeline.withOverlay id overlay).Settled := by
  intro track
  refine ((settled.laidOut moments track).of_timing ?_).layoutFrom_eq
  rw [Timeline.withOverlay, on_map, List.map_map]
  refine List.map_congr_left fun clip _ => ?_
  dsimp only [Function.comp_apply]
  split <;> rfl

end Timeline

namespace Target

variable {timeline : Timeline} {focused target : Value} {clip : Clip}

/-- A clip carries the overlays of requests with a target. -/
inductive Carries (timeline : Timeline) (focused target : Value) (clip : Clip) : Prop
  /-- It is a clip of the main track that the target means. -/
  | meant (single : isPlural target = false) (means : Means timeline focused target clip)
      (main : clip ∈ timeline.main)
  /-- It is the first clip of the main track, and the target means one of the overlay
  track. -/
  | instead {other : Clip} (single : isPlural target = false)
      (means : Means timeline focused target other) (off : other ∈ timeline.overlay)
      (first : timeline.main.head? = some clip)
  /-- It is the first clip of the main track, and the target is a word for several clips. -/
  | plural (several : isPlural target = true) (first : timeline.main.head? = some clip)

/-- Overlays lie over clips of the main track. -/
theorem Carries.mem (carries : Carries timeline focused target clip) : clip ∈ timeline.main := by
  cases carries with
  | meant _ _ main => exact main
  | instead _ _ _ first => exact List.mem_of_mem_head? first
  | plural _ first => exact List.mem_of_mem_head? first

end Target

namespace Request

/-- A request asks for an overlay: the first one that it describes has an image. -/
structure Shows (request : Request) (target described image wanted : Value) : Prop where
  /-- The request is one for overlays. -/
  named : request.kind = .ok .addOverlays
  /-- It is aimed at a target. -/
  aimed : request.target = .ok target
  /-- It describes an overlay before all others. -/
  first : ∃ others, request.argument "overlays" .null = .ok (.list (described :: others))
  /-- The description names an image. -/
  shown : imageOf described = .ok image
  /-- The name of the image is not empty. -/
  given : image.truthy = true
  /-- The opacity that is wanted, null for none. -/
  asked : described.lookup "opacity" .null = .ok wanted

/-- An overlay is made after a description. What is wanted as its opacity is replaced when
it is zero or empty. -/
structure Pictures (image wanted : Value) (number : Nat) (overlay : Overlay) : Prop where
  /-- It has a new name. -/
  id : overlay.id = .text (overlayId number)
  /-- It shows the image. -/
  image : overlay.image = image
  /-- It is as opaque as it is wanted to be, or half so. -/
  opacity : overlay.opacity = if wanted.truthy then wanted else overlayOpacity
  /-- Its left edge is within the frame. -/
  x : overlay.position.x.Within 5 85
  /-- So is its upper edge. -/
  y : overlay.position.y.Within 5 90

/-- There is no overlay to be added for a request. -/
inductive Lacks (timeline : Timeline) (focused target described : Value) : Fault → Prop
  /-- The target means no clip. -/
  | missed {why : Rejection} (single : Target.isPlural target = false)
      (none : ∀ clip, ¬ Target.Means timeline focused target clip) :
      Lacks timeline focused target described (.rejected why)
  /-- The tags of the overlay cannot be read. -/
  | untold {tags : Value} {fault : Fault} (tagged : described.lookup "tags" .null = .ok tags)
      (untold : Placement.tagText tags = .error fault) :
      Lacks timeline focused target described fault

/-- What a request for an overlay comes to. -/
inductive Adds (timeline : Timeline) (focused target described image wanted : Value)
    (number : Nat) : Outcome Timeline → Prop
  /-- The overlay lies over those that a clip had before, and nothing else has changed but
  start times that layout moves. -/
  | added {clip : Clip} {overlay : Overlay} {result : Timeline}
      (carries : Target.Carries timeline focused target clip) (isOpen : clip.IsOpen)
      (pictures : Pictures image wanted number overlay)
      (new : ∀ other ∈ clip.overlays, other.id.equal overlay.id = false)
      (same : result.unplaced = (timeline.withOverlay clip.id overlay).unplaced)
      (kept : timeline.Settled → result = timeline.withOverlay clip.id overlay) :
      Adds timeline focused target described image wanted number (.ok result)
  /-- There is no overlay to be added. -/
  | lacking {fault : Fault} (lacks : Lacks timeline focused target described fault) :
      Adds timeline focused target described image wanted number (.error fault)
  /-- The clip has an overlay with the new name already. -/
  | taken {clip : Clip} {other : Overlay}
      (carries : Target.Carries timeline focused target clip) (mem : other ∈ clip.overlays)
      (named : other.id.equal (.text (overlayId number)) = true) :
      Adds timeline focused target described image wanted number
        (.error (.rejected .overlayIdsRepeated))
  /-- The clip cannot be changed. -/
  | barred {clip : Clip} {fault : Fault}
      (carries : Target.Carries timeline focused target clip) (bars : clip.Bars fault) :
      Adds timeline focused target described image wanted number (.error fault)

variable {request : Request} {timeline : Timeline}
  {focused target described image wanted : Value} {supply : Supply}

/-! ## The clip and the overlay -/

/-- The main clip of a request carries its overlays, or the target means none. Names and
random numbers are left for later. -/
theorem ends_mainClip (orderly : timeline.Orderly) (nonempty : timeline.main ≠ [])
    (described : Value) (supply : Supply) :
    Work.Ends (mainClip timeline target focused) supply fun outcome after =>
      Fares (Lacks timeline focused target described) (Target.Carries timeline focused target)
        outcome ∧ after.draws = supply.draws ∧ after.nextId = supply.nextId := by
  obtain ⟨first, rest, hmain⟩ := List.exists_cons_of_ne_nil nonempty
  have hfirst : timeline.main.head? = some first := by rw [hmain, List.head?_cons]
  simp only [mainClip, hmain]
  by_cases several : Target.isPlural target = true
  · rw [if_pos several]
    exact Work.ends_of_run rfl ⟨fares_ok (.plural several hfirst), rfl, rfl⟩
  rw [if_neg several]
  have single := eq_false_of_ne_true several
  have resolves := Target.resolves orderly target focused
  cases hclips : Target.resolve timeline target focused with
  | error fault =>
    rw [hclips] at resolves
    have hnone : Target.resolveFirst timeline target focused = .error fault := by
      rw [Target.resolveFirst, hclips, error_bind]
    cases resolves with
    | none none =>
      exact Work.ends_bind_of_error (congrArg (·, supply) hnone)
        ⟨fares_error (.missed single none), rfl, rfl⟩
  | ok clips =>
    obtain ⟨clip, clips, rfl⟩ := List.exists_cons_of_ne_nil (Target.ne_nil_of_resolve hclips)
    rw [hclips] at resolves
    obtain ⟨mem⟩ := resolves
    have means := (mem clip).mp List.mem_cons_self
    have hclip : Target.resolveFirst timeline target focused = .ok clip := by
      rw [Target.resolveFirst, hclips]
      rfl
    refine Drawing.ends_ofOutcome_bind hclip ?_
    obtain ⟨track, hon⟩ := Timeline.mem_clips.mp means.mem
    have htrack := orderly.tracks track clip hon
    by_cases main : clip.track.equal Track.main.toValue = true
    · rw [if_pos main]
      cases Track.eq_of_equal main htrack
      exact Work.ends_of_run rfl ⟨fares_ok (.meant single means hon), rfl, rfl⟩
    · rw [if_neg main]
      cases track with
      | main => exact absurd htrack main
      | overlay =>
        exact Work.ends_bind_of_ok rfl
          (Work.ends_of_run rfl ⟨fares_ok (.instead single means hon hfirst), rfl, rfl⟩)

/-- The first overlay of a request finds a place within the frame, and names are left for
later. -/
theorem exists_place (rolls : supply.Rolls) (type : Value) : ∃ placed after,
    (Drawing.place type (.int 0)).run.run supply = (.ok placed, after) ∧
      after.nextId = supply.nextId ∧
      placed.1.x.Within 5 85 ∧ placed.1.y.Within 5 90 := by
  have hslot : Faults (fun _ => False) (Placement.slot (.int 0)) := faults_ok 15
  have keeps := Placement.keeps_place type hslot supply.draws rolls
  unfold Work.Ends at keeps
  cases hrun : (Placement.place type (.int 0)).run.run supply.draws with
  | mk outcome draws =>
    rw [hrun] at keeps
    obtain ⟨_, fails, returns⟩ := keeps
    cases outcome with
    | error fault => exact (fails fault rfl).elim
    | ok placed =>
      have hplace : (Drawing.place type (.int 0)).run.run supply =
        (((Placement.place type (.int 0)).run.run supply.draws).1,
          { supply with draws := ((Placement.place type (.int 0)).run.run supply.draws).2 }) := rfl
      rw [hrun] at hplace
      exact ⟨placed, _, hplace, rfl, returns placed rfl⟩

/-- The description of an overlay is a record. -/
theorem Shows.isRecord (shows : request.Shows target described image wanted) :
    ∃ fields, described = .record fields := by
  have hasked := shows.asked
  cases described with
  | record fields => exact ⟨fields, rfl⟩
  | _ => cases hasked

/-- The overlay that is described first is made, with the next name. -/
theorem Shows.ends_makeOverlays (shows : request.Shows target described image wanted)
    (timeline : Timeline) (focused : Value) (rolls : supply.Rolls) :
    Work.Ends (makeOverlays [] [described]) supply fun outcome _ =>
      Fares (Lacks timeline focused target described)
        (fun made => ∃ overlay, made = [overlay] ∧ Pictures image wanted supply.nextId overlay)
        outcome := by
  rw [makeOverlays]
  refine Drawing.ends_ofOutcome_bind shows.shown ?_
  rw [if_pos shows.given]
  have htype : Faults (Lacks timeline focused target described) (Placement.inferType described) :=
    faults_inferType (fun name => Value.faults_lookup_of_record shows.isRecord name .null)
      fun _ tagged _ => .untold tagged
  cases hinfer : Placement.inferType described with
  | error fault =>
    exact Work.ends_bind_of_error rfl (fares_error (htype fault hinfer))
  | ok type =>
    obtain ⟨placed, after, hplace, hnext, hx, hy⟩ := exists_place rolls type
    refine Drawing.ends_ofOutcome_bind rfl (Work.ends_bind_of_ok hplace ?_)
    refine Drawing.ends_ofOutcome_bind shows.asked ?_
    refine Work.ends_bind_of_ok (a := .text (overlayId supply.nextId)) (by rw [← hnext]; rfl) ?_
    exact Work.ends_of_run rfl (fares_ok ⟨_, rfl, rfl, rfl, rfl, hx, hy⟩)

/-- The request is translated into one edit, which puts the new overlay over those of the
clip that carries it. -/
theorem Shows.ends_edits (shows : request.Shows target described image wanted)
    (orderly : timeline.Orderly) (nonempty : timeline.main ≠ []) (focused : Value)
    (rolls : supply.Rolls) :
    Work.Ends (edits timeline request focused) supply fun outcome _ =>
      Fares (Lacks timeline focused target described)
        (fun edits => ∃ clip overlay,
          edits = [.overlays clip.id (clip.overlays ++ [overlay])] ∧
            Target.Carries timeline focused target clip ∧
            Pictures image wanted supply.nextId overlay)
        outcome := by
  obtain ⟨others, hfirst⟩ := shows.first
  have hdescribed : (do describedOverlays (← request.argument "overlays" .null)) =
      .ok [described] := by
    rw [hfirst]
    rfl
  refine Drawing.ends_ofOutcome_bind shows.named ?_
  refine Drawing.ends_ofOutcome_bind shows.aimed ?_
  refine (ends_mainClip orderly nonempty described supply).bind ?_ fun _ _ fails =>
    fares_error (fails.1.1 _ rfl)
  rintro clip after ⟨⟨_, carries⟩, hdraws, hnext⟩
  have rolls' : after.Rolls := by rwa [Supply.Rolls, hdraws]
  refine Drawing.ends_ofOutcome_bind hdescribed ?_
  refine (shows.ends_makeOverlays timeline focused rolls').bind ?_ fun _ _ fails =>
    fares_error (fails.1 _ rfl)
  rintro made _ ⟨_, returns⟩
  obtain ⟨overlay, rfl, pictures⟩ := returns made rfl
  rw [hnext] at pictures
  exact Work.ends_of_run rfl (fares_ok ⟨clip, overlay, rfl, carries clip rfl, pictures⟩)

/-! ## The edit -/

/-- On a checked timeline a clip of the main track can have one more overlay if its track can
be addressed. -/
theorem exists_laysOut_withOverlay (checked : timeline.checkInvariants = .ok ()) {spot : Spot}
    {id : Value} (found : spot.Of timeline id)
    (addressed : Track.addressed spot.clip.track = .ok spot.track) (overlay : Overlay) :
    ∃ result, timeline.replaceClip
        { spot.clip with overlays := spot.clip.overlays ++ [overlay] } = .ok result ∧
      result.LaysOut (timeline.withOverlay id overlay) timeline := by
  have orderly := Timeline.orderly_of_checked checked
  have lengths := Timeline.hasLengths_of_checked checked
  have hfilled : (spot.fill timeline
      [{ spot.clip with overlays := spot.clip.overlays ++ [overlay] }]).HasLengths :=
    found.forall_on_fill_one lengths (lengths spot.track spot.clip found.mem_on)
  obtain ⟨result, hresult⟩ :=
    Timeline.exists_replaceClip orderly found addressed hfilled rfl rfl
  have laysOut := orderly.laysOut_replaceClip found hresult rfl rfl
  have hmap := found.fill_eq_map orderly fun clip =>
    { clip with overlays := clip.overlays ++ [overlay] }
  rw [hmap] at laysOut
  exact ⟨result, hresult, laysOut⟩

/-- The overlay comes to lie over its clip unless the clip cannot be changed or has one of
the same name. -/
theorem adds_of_apply (checked : timeline.checkInvariants = .ok ()) {clip : Clip}
    {overlay : Overlay} {number : Nat} (carries : Target.Carries timeline focused target clip)
    (pictures : Pictures image wanted number overlay) :
    Adds timeline focused target described image wanted number
      ((Edit.overlays clip.id (clip.overlays ++ [overlay])).apply timeline) := by
  have orderly := Timeline.orderly_of_checked checked
  rw [Edit.apply, Edit.applyOverlays]
  cases hnan : clip.id.isNaN with
  | true =>
    rw [Timeline.require_of_isNaN hnan, error_bind]
    exact .barred carries (.unnamed hnan)
  | false =>
    obtain ⟨before, after, split⟩ := List.append_of_mem carries.mem
    have found : Spot.Of ⟨.main, before, clip, after⟩ timeline clip.id :=
      ⟨split, Value.equal_self_of_not_isNaN hnan⟩
    have hon := found.track_equal orderly
    have hrepeats := (Timeline.forall_on_of_checked checked .main clip carries.mem).2.2
    have hids : Value.hasRepeats ((clip.overlays ++ [overlay]).map Overlay.id) =
        .ok ((clip.overlays.map Overlay.id).any (Value.equal · overlay.id)) := by
      rw [List.map_append, List.map_singleton, pictures.id]
      exact Value.hasRepeats_append_text hrepeats _
    rw [found.require_eq_ok orderly, ok_bind, hon, hids, Bool.not_true, Bool.and_false]
    cases htaken : (clip.overlays.map Overlay.id).any (Value.equal · overlay.id) with
    | true =>
      obtain ⟨_, hmem, named⟩ := List.any_eq_true.mp htaken
      obtain ⟨other, mem, rfl⟩ := List.mem_map.mp hmem
      rw [pictures.id] at named
      exact .taken carries mem named
    | false =>
      have new : ∀ other ∈ clip.overlays, other.id.equal overlay.id = false := by
        simpa using htaken
      change Adds _ _ _ _ _ _ _ (timeline.replaceClip _)
      by_cases real : clip.track.IsReal
      · rw [Timeline.replaceClip, Timeline.track_of_isReal hon real, error_bind]
        exact .barred carries (.illTyped real)
      · obtain ⟨result, hresult, laysOut⟩ := exists_laysOut_withOverlay checked found
          (Track.addressed_of_equal hon real) overlay
        rw [hresult]
        refine .added carries ⟨hnan, real⟩ pictures new laysOut.unplaced_eq fun settled => ?_
        exact laysOut.eq_of_settled
          (settled.withOverlay (Timeline.hasMoments_of_checked checked) clip.id overlay)

/-- On a checked timeline with a clip on the main track, a request for an overlay puts one
with the image that it names over the others of a clip of that track, within the frame and
as opaque as is wanted, or half so when what is wanted is zero or empty. It fails only if
the target means no clip, if the tags of the overlay cannot be read, if the new name is
taken, or at a clip whose name is not-a-number or whose track is stored as a double. -/
theorem adds_of_checked (checked : timeline.checkInvariants = .ok ())
    (nonempty : timeline.main ≠ []) (shows : request.Shows target described image wanted)
    (focused : Value) (rolls : supply.Rolls) :
    Work.Ends (applyOne timeline request focused) supply fun outcome _ =>
      Adds timeline focused target described image wanted supply.nextId outcome := by
  have orderly := Timeline.orderly_of_checked checked
  refine (shows.ends_edits orderly nonempty focused rolls).bind ?_ fun _ _ fails =>
    .lacking (fails.1 _ rfl)
  rintro edits after ⟨_, returns⟩
  obtain ⟨clip, overlay, rfl, carries, pictures⟩ := returns edits rfl
  refine Work.ends_of_run rfl ?_
  rw [Edit.applyAll_singleton]
  exact adds_of_apply checked carries pictures

/-- The description of a bat. -/
def bat : Value := .record [("imageRef", .text "bat.png"), ("opacity", .real 0.75)]

/-- The description of a ghost that cannot be seen. -/
def ghost : Value := .record [("imageRef", .text "ghost.png"), ("opacity", .real 0)]

/-- A request for one overlay. -/
def showing (described : Value) : Request :=
  ⟨.text "addOverlaysToClip", .record [("overlays", .list [described])]⟩

/-- The bat is shown. -/
theorem showing_bat : (showing bat).Shows (.text "first") bat (.text "bat.png") (.real 0.75) :=
  ⟨rfl, rfl, ⟨[], rfl⟩, rfl, rfl, rfl⟩

/-- The ghost is shown, although it is not to be seen. -/
theorem showing_ghost : (showing ghost).Shows (.text "first") ghost (.text "ghost.png") (.real 0) :=
  ⟨rfl, rfl, ⟨[], rfl⟩, rfl, rfl, rfl⟩

/-- The bat comes to lie over the first clip of the pair, three quarters opaque. -/
theorem adds_to_pair : ∃ overlay, Pictures (.text "bat.png") (.real 0.75) 1 overlay ∧
    overlay.opacity = .real 0.75 ∧
    ((applyOne Edit.pair (showing bat) .null).run.run dice).1 =
      .ok (Edit.pair.withOverlay (.text "a") overlay) := by
  have adds := adds_of_checked Edit.pair_checked (List.cons_ne_nil _ _) showing_bat .null dice_rolls
  unfold Work.Ends at adds
  obtain ⟨result, after, hrun⟩ := Work.exists_of_isOk
    (show ((applyOne Edit.pair (showing bat) .null).run.run dice).1.isOk = true by decide +kernel)
  rw [hrun] at adds ⊢
  cases adds with
  | @added clip overlay _ carries isOpen pictures new same kept =>
    have hclip : clip = Edit.former := by
      cases carries with
      | meant single means main =>
        have first : Target.IsFirst Edit.pair clip := by
          simpa +decide [Target.means_iff] using means
        exact (Option.some.inj (Target.isFirst_iff.mp first)).symm
      | instead single means off first => cases off
      | plural several first => cases several
    subst hclip
    refine ⟨overlay, pictures, ?_, ?_⟩
    · rw [pictures.opacity, if_pos (by decide +kernel)]
    · rw [kept Edit.pair_wellFormed.settled]
      rfl

/-- The ghost is to be fully transparent, but it is half opaque. -/
theorem seen_of_ghost : Edit.pair.checkInvariants = .ok () ∧ Edit.pair.main ≠ [] ∧
    dice.Rolls ∧ (showing ghost).Shows (.text "first") ghost (.text "ghost.png") (.real 0) ∧
    ∃ result, ((applyOne Edit.pair (showing ghost) .null).run.run dice).1 = .ok result ∧
      ∃ clip ∈ result.main, ∃ overlay ∈ clip.overlays,
        overlay.image.equal (.text "ghost.png") = true ∧
        overlay.opacity.equal (.real 0) = false := by
  refine ⟨Edit.pair_checked, List.cons_ne_nil _ _, dice_rolls, showing_ghost, ?_⟩
  have hseen : ((applyOne Edit.pair (showing ghost) .null).run.run dice).1.toOption.any
      (fun result => result.main.any fun clip => clip.overlays.any fun overlay =>
        overlay.image.equal (.text "ghost.png") && !overlay.opacity.equal (.real 0)) = true := by
    decide +kernel
  obtain ⟨result, hrun, hany⟩ := exists_of_any hseen
  simp only [List.any_eq_true, Bool.and_eq_true, Bool.not_eq_true'] at hany
  exact ⟨result, hrun, hany⟩

end Request

end Montage
