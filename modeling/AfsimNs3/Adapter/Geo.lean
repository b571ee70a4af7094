import AfsimNs3.Lib.Rigid
import Mathlib.Analysis.SpecialFunctions.Trigonometric.Basic

/-!
# Geodetic points in the local frame (`GeoCoordinates`)

The conversions in exact real arithmetic, the constants as the source writes them. A point out of range is refused
(`none`). `LocalEnuFrame.toEnu` gives the coordinates, in the right-handed orthonormal frame of the origin's latitude
and longitude, of the difference of two ECEF points (`toEnu_eq`).
-/

noncomputable section

namespace AfsimNs3.Adapter
open Matrix

def pi : ℝ := 3.14159265358979323846

def wgs84SemiMajorM : ℝ := 6378137.0

def wgs84EccentricitySquared : ℝ := 6.6943799901413165e-3

def radians (degrees : ℝ) : ℝ := degrees * pi / 180.0

structure GeoPoint where
  latitudeDeg : ℝ
  longitudeDeg : ℝ
  altitudeM : ℝ

/-- What `Validate` lets pass. -/
structure GeoPoint.Valid (point : GeoPoint) : Prop where
  latitude : -90 ≤ point.latitudeDeg ∧ point.latitudeDeg ≤ 90
  longitude : -180 ≤ point.longitudeDeg ∧ point.longitudeDeg ≤ 180

/-- Three coordinates, with the Euclidean distance. -/
abbrev Coordinates := EuclideanSpace ℝ (Fin 3)

/-- The radius of curvature at a latitude given by its sine. -/
def curvatureRadius (sinLatitude : ℝ) : ℝ :=
  wgs84SemiMajorM / Real.sqrt (1 - wgs84EccentricitySquared * sinLatitude * sinLatitude)

/-- `ToEcef` after the validation. -/
def ecef (point : GeoPoint) : Coordinates :=
  let latitude := radians point.latitudeDeg
  let longitude := radians point.longitudeDeg
  let sinLatitude := Real.sin latitude
  let cosLatitude := Real.cos latitude
  let radius := curvatureRadius sinLatitude
  !₂[(radius + point.altitudeM) * cosLatitude * Real.cos longitude,
    (radius + point.altitudeM) * cosLatitude * Real.sin longitude,
    (radius * (1 - wgs84EccentricitySquared) + point.altitudeM) * sinLatitude]

open Classical in
def toEcef (point : GeoPoint) : Option Coordinates := if point.Valid then some (ecef point) else none

structure LocalEnuFrame where
  mOrigin : GeoPoint
  mOriginEcef : Coordinates
  mSinLatitude : ℝ
  mCosLatitude : ℝ
  mSinLongitude : ℝ
  mCosLongitude : ℝ

namespace LocalEnuFrame

def new (origin : GeoPoint) : Option LocalEnuFrame := do
  let mOriginEcef ← toEcef origin
  let latitude := radians origin.latitudeDeg
  let longitude := radians origin.longitudeDeg
  some ⟨origin, mOriginEcef, Real.sin latitude, Real.cos latitude, Real.sin longitude, Real.cos longitude⟩

def toEnu (frame : LocalEnuFrame) (point : GeoPoint) : Option Coordinates := do
  let ecef ← toEcef point
  let dx := ecef 0 - frame.mOriginEcef 0
  let dy := ecef 1 - frame.mOriginEcef 1
  let dz := ecef 2 - frame.mOriginEcef 2
  some !₂[-frame.mSinLongitude * dx + frame.mCosLongitude * dy,
    -frame.mSinLatitude * frame.mCosLongitude * dx - frame.mSinLatitude * frame.mSinLongitude * dy +
      frame.mCosLatitude * dz,
    frame.mCosLatitude * frame.mCosLongitude * dx + frame.mCosLatitude * frame.mSinLongitude * dy +
      frame.mSinLatitude * dz]

/-- The directions of the three coordinates, one row each. -/
def axes (frame : LocalEnuFrame) : Matrix (Fin 3) (Fin 3) ℝ :=
  Rigid.enu frame.mSinLatitude frame.mCosLatitude frame.mSinLongitude frame.mCosLongitude

/-- The frame of an origin. -/
structure At (frame : LocalEnuFrame) (origin : GeoPoint) : Prop where
  valid : origin.Valid
  originEcef : frame.mOriginEcef = ecef origin
  sinLatitude : frame.mSinLatitude = Real.sin (radians origin.latitudeDeg)
  cosLatitude : frame.mCosLatitude = Real.cos (radians origin.latitudeDeg)
  sinLongitude : frame.mSinLongitude = Real.sin (radians origin.longitudeDeg)
  cosLongitude : frame.mCosLongitude = Real.cos (radians origin.longitudeDeg)

end LocalEnuFrame

/-! ## Coordinates in the frame -/

theorem toEcef_of_valid {point : GeoPoint} (h : point.Valid) : toEcef point = some (ecef point) := if_pos h

theorem new_of_valid {origin : GeoPoint} (h : origin.Valid) :
    ∃ frame, LocalEnuFrame.new origin = some frame ∧ frame.At origin := by
  refine ⟨⟨origin, ecef origin, Real.sin (radians origin.latitudeDeg), Real.cos (radians origin.latitudeDeg),
    Real.sin (radians origin.longitudeDeg), Real.cos (radians origin.longitudeDeg)⟩, ?_, ⟨h, rfl, rfl, rfl, rfl, rfl⟩⟩
  rw [LocalEnuFrame.new, toEcef_of_valid h]
  rfl

variable {frame : LocalEnuFrame} {origin : GeoPoint}

/-- **The coordinates of a point in the axes of the frame.** -/
theorem toEnu_eq (hframe : frame.At origin) {point : GeoPoint} (h : point.Valid) :
    frame.toEnu point = some (WithLp.toLp 2 (frame.axes *ᵥ ((ecef point).ofLp - (ecef origin).ofLp))) := by
  rw [LocalEnuFrame.toEnu, toEcef_of_valid h]
  refine congrArg some (congrArg (WithLp.toLp 2) ?_)
  rw [hframe.originEcef]
  ext i
  fin_cases i
  · simp [LocalEnuFrame.axes, Rigid.enu, mulVec, dotProduct, Fin.sum_univ_three]
  · simp [LocalEnuFrame.axes, Rigid.enu, mulVec, dotProduct, Fin.sum_univ_three]
    ring
  · simp [LocalEnuFrame.axes, Rigid.enu, mulVec, dotProduct, Fin.sum_univ_three]

theorem latitude_sq (hframe : frame.At origin) : frame.mSinLatitude ^ 2 + frame.mCosLatitude ^ 2 = 1 := by
  rw [hframe.sinLatitude, hframe.cosLatitude]
  exact Real.sin_sq_add_cos_sq _

theorem longitude_sq (hframe : frame.At origin) : frame.mSinLongitude ^ 2 + frame.mCosLongitude ^ 2 = 1 := by
  rw [hframe.sinLongitude, hframe.cosLongitude]
  exact Real.sin_sq_add_cos_sq _

theorem axes_mem (hframe : frame.At origin) : frame.axes ∈ specialOrthogonalGroup (Fin 3) ℝ :=
  Rigid.enu_mem (latitude_sq hframe) (longitude_sq hframe)

/-! ## Distances, the origin and the vertical -/

/-- **The frame keeps distances.** -/
theorem toEnu_dist (hframe : frame.At origin) {p q : GeoPoint} (hp : p.Valid) (hq : q.Valid) :
    ∃ x y, frame.toEnu p = some x ∧ frame.toEnu q = some y ∧ dist x y = dist (ecef p) (ecef q) :=
  ⟨_, _, toEnu_eq hframe hp, toEnu_eq hframe hq, Rigid.dist_coordinates (axes_mem hframe).1 ..⟩

theorem toEnu_origin (hframe : frame.At origin) : frame.toEnu origin = some 0 := by
  rw [toEnu_eq hframe hframe.valid, sub_self, mulVec_zero]
  rfl

/-- The point above another one. -/
def GeoPoint.raised (point : GeoPoint) (h : ℝ) : GeoPoint := { point with altitudeM := point.altitudeM + h }

/-- **The vertical of the ellipsoid is the third axis.** -/
theorem toEnu_raised (hframe : frame.At origin) (h : ℝ) : frame.toEnu (origin.raised h) = some !₂[0, 0, h] := by
  have hvalid : (origin.raised h).Valid := ⟨hframe.valid.latitude, hframe.valid.longitude⟩
  have hup : (ecef (origin.raised h)).ofLp - (ecef origin).ofLp =
      ![h * (frame.mCosLatitude * frame.mCosLongitude), h * (frame.mCosLatitude * frame.mSinLongitude),
        h * frame.mSinLatitude] := by
    rw [hframe.sinLatitude, hframe.cosLatitude, hframe.sinLongitude, hframe.cosLongitude]
    ext i
    fin_cases i
    · simp [ecef, GeoPoint.raised]
      ring
    · simp [ecef, GeoPoint.raised]
      ring
    · simp [ecef, GeoPoint.raised]
      ring
  rw [toEnu_eq hframe hvalid, hup]
  exact congrArg some (congrArg (WithLp.toLp 2) (Rigid.enu_mulVec_up (latitude_sq hframe) (longitude_sq hframe) h))

/-- **The local frame is a rigid motion with the right axes**: for a valid origin and two valid points the images exist
and are as far apart as the ECEF points, the coordinates are those along a right-handed orthonormal frame, the origin
maps to zero and a point above it to the vertical axis. -/
theorem localEnuFrame_rigid {origin p q : GeoPoint} (ho : origin.Valid) (hp : p.Valid) (hq : q.Valid) :
    ∃ frame x y e e', LocalEnuFrame.new origin = some frame ∧ frame.toEnu p = some x ∧ frame.toEnu q = some y ∧
      toEcef p = some e ∧ toEcef q = some e' ∧ dist x y = dist e e' ∧
      frame.axes ∈ specialOrthogonalGroup (Fin 3) ℝ ∧
      x.ofLp = frame.axes *ᵥ (e.ofLp - frame.mOriginEcef.ofLp) ∧
      frame.toEnu origin = some 0 ∧ ∀ h, frame.toEnu (origin.raised h) = some !₂[0, 0, h] := by
  obtain ⟨frame, hnew, hframe⟩ := new_of_valid ho
  obtain ⟨x, y, hx, hy, hdist⟩ := toEnu_dist hframe hp hq
  refine ⟨frame, x, y, ecef p, ecef q, hnew, hx, hy, toEcef_of_valid hp, toEcef_of_valid hq, hdist, axes_mem hframe, ?_,
    toEnu_origin hframe, toEnu_raised hframe⟩
  rw [toEnu_eq hframe hp] at hx
  rw [← Option.some.inj hx, hframe.originEcef]

/-- A frame in middle latitudes, with a point at the pole and one at the edge of the range. -/
theorem localEnuFrame_rigid_example : ∃ frame x y e e', LocalEnuFrame.new ⟨45, 30, 100⟩ = some frame ∧
    frame.toEnu ⟨-90, 0, 0⟩ = some x ∧ frame.toEnu ⟨12, 180, -50⟩ = some y ∧ toEcef ⟨-90, 0, 0⟩ = some e ∧
      toEcef ⟨12, 180, -50⟩ = some e' ∧ dist x y = dist e e' := by
  have ho : GeoPoint.Valid ⟨45, 30, 100⟩ := ⟨by norm_num, by norm_num⟩
  have hp : GeoPoint.Valid ⟨-90, 0, 0⟩ := ⟨by norm_num, by norm_num⟩
  have hq : GeoPoint.Valid ⟨12, 180, -50⟩ := ⟨by norm_num, by norm_num⟩
  obtain ⟨frame, x, y, e, e', hnew, hx, hy, he, he', hdist, -⟩ := localEnuFrame_rigid ho hp hq
  exact ⟨frame, x, y, e, e', hnew, hx, hy, he, he', hdist⟩

end AfsimNs3.Adapter

end
