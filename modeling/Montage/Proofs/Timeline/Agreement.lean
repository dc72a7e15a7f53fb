import Mathlib.Data.List.Forall2
import Montage.Proofs.Value.Agreement
import Montage.Timeline.Basic

/-!
# Agreement of timelines

Timelines are compared part by part, down to the values. As values agree with
themselves and along chains, so do places, sources, overlays, clips and
timelines.
-/

namespace Montage

/-- A comparison under which everything agrees with itself, and what agrees with
the same agrees. -/
structure IsAgreement {α : Type} (agrees : α → α → Bool) : Prop where
  /-- Everything agrees with itself. -/
  refl : ∀ a, agrees a a = true
  /-- Agreement goes along chains. -/
  trans : ∀ {a b c}, agrees a b = true → agrees b c = true → agrees a c = true

namespace IsAgreement

/-- Lists are compared by their lengths and their pairs of items, that is item by
item. -/
theorem zip_iff_forall₂ {α : Type} {agrees : α → α → Bool} {xs ys : List α} :
    (decide (xs.length = ys.length) &&
        (xs.zip ys).all fun pair => agrees pair.1 pair.2) = true ↔
      List.Forall₂ (fun x y => agrees x y = true) xs ys := by
  rw [List.forall₂_iff_zip, Bool.and_eq_true, decide_eq_true_eq, List.all_eq_true]
  exact and_congr_right fun _ => ⟨fun all x y hxy => all (x, y) hxy,
    fun all pair hpair => all hpair⟩

/-- Lists agree when they have the same length and agree item by item. -/
theorem list {α : Type} {agrees : α → α → Bool} (h : IsAgreement agrees) :
    IsAgreement fun xs ys : List α =>
      xs.length = ys.length && (xs.zip ys).all fun pair => agrees pair.1 pair.2 := by
  refine ⟨fun xs => zip_iff_forall₂.mpr (List.forall₂_same.mpr fun x _ => h.refl x), ?_⟩
  intro xs ys zs hxy hyz
  rw [zip_iff_forall₂] at *
  induction hxy generalizing zs with
  | nil => exact hyz
  | cons hx _ ih =>
    cases hyz with
    | cons hy hrest => exact .cons (h.trans hx hy) (ih hrest)

end IsAgreement

/-- Agreement of values. -/
theorem Value.isAgreement : IsAgreement Value.agrees := ⟨agrees_refl, agrees_trans _ _ _⟩

/-- Agreement of positions. -/
theorem Position.isAgreement : IsAgreement Position.agrees where
  refl p := by simp only [agrees, Value.agrees_refl, Bool.and_self]
  trans := by
    intro p q r hpq hqr
    simp only [agrees, Bool.and_eq_true] at *
    exact ⟨Value.isAgreement.trans hpq.1 hqr.1, Value.isAgreement.trans hpq.2 hqr.2⟩

/-- Agreement of sizes. -/
theorem Size.isAgreement : IsAgreement Size.agrees where
  refl s := by simp only [agrees, Value.agrees_refl, Bool.and_self]
  trans := by
    intro s t u hst htu
    simp only [agrees, Bool.and_eq_true] at *
    exact ⟨Value.isAgreement.trans hst.1 htu.1, Value.isAgreement.trans hst.2 htu.2⟩

/-- Agreement of sources. -/
theorem Source.isAgreement : IsAgreement Source.agrees where
  refl s := by simp only [agrees, Value.agrees_refl, Bool.and_self]
  trans := by
    intro s t u hst htu
    simp only [agrees, Bool.and_eq_true, and_assoc] at *
    obtain ⟨path, duration, width, height⟩ := hst
    obtain ⟨path', duration', width', height'⟩ := htu
    exact ⟨Value.isAgreement.trans path path', Value.isAgreement.trans duration duration',
      Value.isAgreement.trans width width', Value.isAgreement.trans height height'⟩

/-- Agreement of overlays. -/
theorem Overlay.isAgreement : IsAgreement Overlay.agrees where
  refl o := by
    simp only [agrees, Value.agrees_refl, Position.isAgreement.refl, Size.isAgreement.refl,
      Bool.and_self]
  trans := by
    intro o p q hop hpq
    simp only [agrees, Bool.and_eq_true, and_assoc] at *
    obtain ⟨id, image, opacity, position, size⟩ := hop
    obtain ⟨id', image', opacity', position', size'⟩ := hpq
    exact ⟨Value.isAgreement.trans id id', Value.isAgreement.trans image image',
      Value.isAgreement.trans opacity opacity', Position.isAgreement.trans position position',
      Size.isAgreement.trans size size'⟩

/-- Agreement of clips. -/
theorem Clip.isAgreement : IsAgreement Clip.agrees where
  refl c := by
    rw [agrees, Overlay.isAgreement.list.refl c.overlays]
    simp only [Value.agrees_refl, Source.isAgreement.refl, Position.isAgreement.refl,
      Size.isAgreement.refl, Bool.and_self]
  trans := by
    intro c d e hcd hde
    rw [agrees, Bool.and_eq_true, Bool.and_eq_true, Bool.and_eq_true] at *
    obtain ⟨⟨⟨values, overlays⟩, position⟩, size⟩ := hcd
    obtain ⟨⟨⟨values', overlays'⟩, position'⟩, size'⟩ := hde
    refine ⟨⟨⟨?_, Overlay.isAgreement.list.trans overlays overlays'⟩,
      Position.isAgreement.trans position position'⟩, Size.isAgreement.trans size size'⟩
    simp only [Bool.and_eq_true, and_assoc] at *
    obtain ⟨id, source, inTime, outTime, startTime, track, muted, filter⟩ := values
    obtain ⟨id', source', inTime', outTime', startTime', track', muted', filter'⟩ := values'
    exact ⟨Value.isAgreement.trans id id', Source.isAgreement.trans source source',
      Value.isAgreement.trans inTime inTime', Value.isAgreement.trans outTime outTime',
      Value.isAgreement.trans startTime startTime', Value.isAgreement.trans track track',
      Value.isAgreement.trans muted muted', Value.isAgreement.trans filter filter'⟩

/-- Agreement of timelines. -/
theorem Timeline.isAgreement : IsAgreement Timeline.agrees where
  refl t := by
    have main := Clip.isAgreement.list.refl t.main
    have overlay := Clip.isAgreement.list.refl t.overlay
    exact Bool.and_eq_true_iff.mpr ⟨main, overlay⟩
  trans := by
    intro s t u hst htu
    obtain ⟨main, overlay⟩ := Bool.and_eq_true_iff.mp hst
    obtain ⟨main', overlay'⟩ := Bool.and_eq_true_iff.mp htu
    exact Bool.and_eq_true_iff.mpr
      ⟨Clip.isAgreement.list.trans main main', Clip.isAgreement.list.trans overlay overlay'⟩

/-- Timelines whose tracks agree clip by clip agree. -/
theorem Timeline.agrees_of_forall₂ {s t : Timeline}
    (h : ∀ track, List.Forall₂ (fun c d => c.agrees d = true) (s.on track) (t.on track)) :
    s.agrees t = true :=
  Bool.and_eq_true_iff.mpr
    ⟨IsAgreement.zip_iff_forall₂.mpr (h .main), IsAgreement.zip_iff_forall₂.mpr (h .overlay)⟩

end Montage
