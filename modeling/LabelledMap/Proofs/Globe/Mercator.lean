import LabelledMap.Globe.Projection
import LabelledMap.Proofs.Scalar.Exact
import Mathlib.Analysis.SpecialFunctions.Artanh

/-!
# The Mercator projection and its inverse

The Mercator projection takes the logarithm of a ratio of sines to the plane, and the way back is
the arctangent of an exponential. Over the real numbers the two meet in `Real.artanh` of the sine of
the latitude: it is half that logarithm (`Projection.log_sineRatio`), and the angle is had back from
it (`Exact.two_mul_arctan_exp_artanh_sin`), because the ratio of sines is the square of the tangent
of half the angle and an eighth of a turn (`Exact.one_add_sin_div_one_sub_sin`).

So a place is had back from where it is drawn, but for a latitude beyond the limits, which is drawn
at the limit (`Projection.drawnLat`, `Projection.unproject_project`). `Projection.mercator_undone`
says this together with the order of the places, which the projection keeps eastwards and reverses
northwards.
-/

set_option autoImplicit false

namespace LabelledMap

/-! ### Angles between the poles -/

namespace Exact

theorem one_add_sin_div_one_sub_sin (angle : ℝ) :
    (1 + Real.sin angle) / (1 - Real.sin angle) = Real.tan (angle / 2 + Real.pi / 4) ^ 2 := by
  have hdouble : Real.cos (2 * (angle / 2 + Real.pi / 4)) = -Real.sin angle := by
    rw [← Real.cos_add_pi_div_two]
    congr 1
    ring
  have hsin : Real.sin (angle / 2 + Real.pi / 4) ^ 2 = (1 + Real.sin angle) / 2 := by
    rw [Real.sin_sq_eq_half_sub, hdouble]
    ring
  have hcos : Real.cos (angle / 2 + Real.pi / 4) ^ 2 = (1 - Real.sin angle) / 2 := by
    rw [Real.cos_sq, hdouble]
    ring
  rw [Real.tan_eq_sin_div_cos, div_pow, hsin, hcos, div_div_div_cancel_right₀ two_ne_zero]

/-- Only the poles have a sine of one or minus one. -/
theorem sin_mem_Ioo {angle : ℝ} (hangle : angle ∈ Set.Ioo (-(Real.pi / 2)) (Real.pi / 2)) :
    Real.sin angle ∈ Set.Ioo (-1) 1 := by
  have hsin := Real.strictMonoOn_sin.mapsTo_Ioo hangle
  rwa [Real.sin_neg, Real.sin_pi_div_two] at hsin

/-- An angle between the poles is had back from the inverse hyperbolic tangent of its sine. -/
theorem two_mul_arctan_exp_artanh_sin {angle : ℝ}
    (hangle : angle ∈ Set.Ioo (-(Real.pi / 2)) (Real.pi / 2)) :
    2 * Real.arctan (Real.exp (Real.artanh (Real.sin angle))) - Real.pi / 2 = angle := by
  obtain ⟨hlow, hhigh⟩ := hangle
  have hpos : 0 < angle / 2 + Real.pi / 4 := by linarith
  have hlt : angle / 2 + Real.pi / 4 < Real.pi / 2 := by linarith
  have htan : 0 < Real.tan (angle / 2 + Real.pi / 4) :=
    Real.tan_pos_of_pos_of_lt_pi_div_two hpos hlt
  have hexp : Real.exp (Real.artanh (Real.sin angle)) = Real.tan (angle / 2 + Real.pi / 4) := by
    rw [Real.exp_artanh (sin_mem_Ioo ⟨hlow, hhigh⟩), one_add_sin_div_one_sub_sin,
      Real.sqrt_sq htan.le]
  rw [hexp, Real.arctan_tan (by linarith) hlt]
  ring

theorem radians_eq (degrees : ℝ) : Analytic.radians degrees = degrees * (Real.pi / 180) := rfl

theorem degrees_radians (degrees : ℝ) : Analytic.degrees (Analytic.radians degrees) = degrees := by
  change degrees * (Real.pi / 180) * (180 / Real.pi) = degrees
  have hpi := Real.pi_ne_zero
  field_simp

theorem strictMono_radians : StrictMono (Analytic.radians : ℝ → ℝ) := fun _ _ hlt ↦
  mul_lt_mul_of_pos_right hlt (div_pos Real.pi_pos (by norm_num))

/-- The poles are a quarter of a turn from the equator. -/
theorem radians_mem_Ioo {lat : ℝ} (hlat : lat ∈ Set.Ioo (-90) 90) :
    Analytic.radians lat ∈ Set.Ioo (-(Real.pi / 2)) (Real.pi / 2) := by
  have hmem := (strictMono_radians.strictMonoOn _).mapsTo_Ioo hlat
  have hsouth : Analytic.radians (-90 : ℝ) = -(Real.pi / 2) := by
    rw [radians_eq]
    ring
  have hnorth : Analytic.radians (90 : ℝ) = Real.pi / 2 := by
    rw [radians_eq]
    ring
  rwa [hsouth, hnorth] at hmem

end Exact

/-! ### The size of the world and its edges -/

theorem worldSize_pos (zoom : ℝ) : 0 < worldSize zoom := by
  have htile : (0 : ℝ) < tileSize := by
    change (0 : ℝ) < 256
    norm_num
  exact mul_pos htile (Real.rpow_pos_of_pos two_pos zoom)

theorem latitudeLimit_pos : (0 : ℝ) < latitudeLimit := by
  change (0 : ℝ) < 85.0511287798
  norm_num

/-- The upper edge of the world is short of the pole. -/
theorem latitudeLimit_lt : (latitudeLimit : ℝ) < 90 := by
  change (85.0511287798 : ℝ) < 90
  norm_num

namespace Projection

/-- The latitude at which the Mercator projection draws a place: the nearest one that is not beyond
an edge of the world. -/
noncomputable def drawnLat (lat : ℝ) : ℝ := max (-latitudeLimit) (min latitudeLimit lat)

theorem drawnLat_mem (lat : ℝ) : drawnLat lat ∈ Set.Icc (-latitudeLimit) latitudeLimit :=
  ⟨le_max_left _ _, max_le (neg_le_self latitudeLimit_pos.le) (min_le_left _ _)⟩

theorem drawnLat_of_mem {lat : ℝ} (hlat : lat ∈ Set.Icc (-latitudeLimit) latitudeLimit) :
    drawnLat lat = lat := by
  unfold drawnLat
  rw [min_eq_right hlat.2, max_eq_right hlat.1]

theorem clamp_eq_drawnLat (lat : ℝ) :
    Scalar.clamp lat (-latitudeLimit) latitudeLimit = drawnLat lat :=
  Exact.clamp_eq_max_min lat (neg_le_self latitudeLimit_pos.le)

theorem radians_drawnLat_mem (lat : ℝ) :
    Analytic.radians (drawnLat lat) ∈ Set.Ioo (-(Real.pi / 2)) (Real.pi / 2) := by
  obtain ⟨hlow, hhigh⟩ := drawnLat_mem lat
  exact Exact.radians_mem_Ioo
    ⟨(neg_lt_neg latitudeLimit_lt).trans_le hlow, hhigh.trans_lt latitudeLimit_lt⟩

/-- The sine of the latitude at which a place is drawn. -/
noncomputable def drawnSine (lat : ℝ) : ℝ := Real.sin (Analytic.radians (drawnLat lat))

theorem drawnSine_mem (lat : ℝ) : drawnSine lat ∈ Set.Ioo (-1) 1 :=
  Exact.sin_mem_Ioo (radians_drawnLat_mem lat)

/-- Further north the sine is larger, as long as no edge of the world is passed. -/
theorem strictMonoOn_drawnSine :
    StrictMonoOn drawnSine (Set.Icc (-latitudeLimit) latitudeLimit) := by
  intro south hsouth north hnorth hlt
  refine Real.strictMonoOn_sin (Set.Ioo_subset_Icc_self (radians_drawnLat_mem south))
    (Set.Ioo_subset_Icc_self (radians_drawnLat_mem north)) ?_
  rw [drawnLat_of_mem hsouth, drawnLat_of_mem hnorth]
  exact Exact.strictMono_radians hlt

/-- What the Mercator projection takes the logarithm of. -/
noncomputable def sineRatio (lat : ℝ) : ℝ := (1 + drawnSine lat) / (1 - drawnSine lat)

theorem log_sineRatio (lat : ℝ) :
    Real.log (sineRatio lat) = 2 * Real.artanh (drawnSine lat) := by
  rw [Real.artanh_eq_half_log (Set.Ioo_subset_Icc_self (drawnSine_mem lat)), sineRatio]
  ring

/-! ### There and back -/

theorem mercator_project (place : LatLng ℝ) (zoom : ℝ) :
    mercator.project place zoom =
      ⟨(place.lng / 360 + 1 / 2) * worldSize zoom,
        (1 / 2 - Real.log (sineRatio place.lat) / (4 * Real.pi)) * worldSize zoom⟩ := by
  unfold mercator
  simp only [clamp_eq_drawnLat, Exact.half_eq, Exact.one_eq, Exact.numeral_eq]
  rfl

theorem mercator_unproject (point : Point ℝ) (zoom : ℝ) :
    mercator.unproject point zoom =
      ⟨Analytic.degrees (2 * Real.arctan (Real.exp
          ((1 / 2 - point.y / worldSize zoom) * 2 * Real.pi)) - Real.pi / 2),
        (point.x / worldSize zoom - 1 / 2) * 360⟩ := by
  unfold mercator
  simp only [Exact.half_eq, Exact.numeral_eq]
  rfl

/-- A place is had back from where it is drawn, with the latitude at which it is drawn. -/
theorem unproject_project (place : LatLng ℝ) (zoom : ℝ) :
    mercator.unproject (mercator.project place zoom) zoom =
      ⟨drawnLat place.lat, place.lng⟩ := by
  have hworld := (worldSize_pos zoom).ne'
  have hpi := Real.pi_ne_zero
  rw [mercator_project, mercator_unproject, log_sineRatio]
  ext
  · have hheight : (1 / 2 - (1 / 2 - 2 * Real.artanh (drawnSine place.lat) / (4 * Real.pi)) *
        worldSize zoom / worldSize zoom) * 2 * Real.pi = Real.artanh (drawnSine place.lat) := by
      field_simp
      ring
    rw [hheight, drawnSine, Exact.two_mul_arctan_exp_artanh_sin (radians_drawnLat_mem place.lat),
      Exact.degrees_radians]
  · change ((place.lng / 360 + 1 / 2) * worldSize zoom / worldSize zoom - 1 / 2) * 360 = place.lng
    rw [mul_div_cancel_right₀ _ hworld]
    ring

/-- A place beyond an edge of the world is drawn where the place at the edge is. -/
theorem project_drawnLat (place : LatLng ℝ) (zoom : ℝ) :
    mercator.project ⟨drawnLat place.lat, place.lng⟩ zoom = mercator.project place zoom := by
  simp only [mercator_project, sineRatio, drawnSine, drawnLat_of_mem (drawnLat_mem place.lat)]

theorem strictMono_project_x (lat zoom : ℝ) :
    StrictMono fun lng ↦ (mercator.project ⟨lat, lng⟩ zoom).x := by
  intro west east hlt
  simp only [mercator_project]
  exact mul_lt_mul_of_pos_right (by linarith) (worldSize_pos zoom)

theorem strictAntiOn_project_y (lng zoom : ℝ) :
    StrictAntiOn (fun lat ↦ (mercator.project ⟨lat, lng⟩ zoom).y)
      (Set.Icc (-latitudeLimit) latitudeLimit) := by
  intro south hsouth north hnorth hlt
  have hheight : Real.artanh (drawnSine south) < Real.artanh (drawnSine north) :=
    Real.strictMonoOn_artanh (drawnSine_mem south) (drawnSine_mem north)
      (strictMonoOn_drawnSine hsouth hnorth hlt)
  simp only [mercator_project, log_sineRatio]
  refine mul_lt_mul_of_pos_right (sub_lt_sub_left ?_ _) (worldSize_pos zoom)
  exact div_lt_div_of_pos_right (by linarith) (mul_pos four_pos Real.pi_pos)

/-- The Mercator projection is undone by its inverse, at every zoom level. What it takes the
logarithm of is positive at every place, and not divided by zero. A place is had back from where it
is drawn, with its longitude, and with its latitude unless that is beyond an edge of the world, for
which the edge is had back. Places further east are drawn further to the right, and within the edges
places further north are drawn further up. Wherever a place is drawn, what is had back from there is
drawn there again. -/
theorem mercator_undone (zoom : ℝ) :
    (∀ place : LatLng ℝ,
      let lat := max (-latitudeLimit) (min latitudeLimit place.lat)
      let sine := Real.sin (Analytic.radians lat)
      0 < 1 - sine ∧ 0 < (1 + sine) / (1 - sine) ∧
        mercator.project place zoom =
          ⟨(place.lng / 360 + 1 / 2) * worldSize zoom,
            (1 / 2 - Real.log ((1 + sine) / (1 - sine)) / (4 * Real.pi)) * worldSize zoom⟩ ∧
        mercator.unproject (mercator.project place zoom) zoom = ⟨lat, place.lng⟩) ∧
      (∀ lat, StrictMono fun lng ↦ (mercator.project (⟨lat, lng⟩ : LatLng ℝ) zoom).x) ∧
      (∀ lng, StrictAntiOn (fun lat ↦ (mercator.project (⟨lat, lng⟩ : LatLng ℝ) zoom).y)
        (Set.Icc (-latitudeLimit) latitudeLimit)) ∧
      Set.LeftInvOn (mercator.project · zoom) (mercator.unproject · zoom)
        (Set.range ((mercator : Projection ℝ).project · zoom)) := by
  refine ⟨fun place ↦ ?_, fun lat ↦ strictMono_project_x lat zoom,
    fun lng ↦ strictAntiOn_project_y lng zoom, ?_⟩
  · obtain ⟨hlow, hhigh⟩ := drawnSine_mem place.lat
    have hdivisor : 0 < 1 - drawnSine place.lat := sub_pos.mpr hhigh
    have hratio : 0 < sineRatio place.lat := div_pos (by linarith) hdivisor
    exact ⟨hdivisor, hratio, mercator_project place zoom, unproject_project place zoom⟩
  · rintro _ ⟨place, rfl⟩
    change mercator.project (mercator.unproject (mercator.project place zoom) zoom) zoom =
      mercator.project place zoom
    rw [unproject_project, project_drawnLat]

end Projection

end LabelledMap
