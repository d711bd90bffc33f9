import Mathlib.Algebra.Order.Group.Lattice
import Mathlib.Algebra.Order.Group.MinMax
import Mathlib.Algebra.BigOperators.Group.List.Basic
import Mathlib.Tactic.Abel

/-! Shifts that are held within bounds. They are closed under composition, so a whole
sequence of them is one shift and two bounds. -/

namespace Deskflow

variable {α : Type*} [AddCommGroup α] [LinearOrder α]

/-- The map that adds `shift` and moves the result between the bounds. -/
structure ClampedShift (α : Type*) [LinearOrder α] where
  shift : α
  lo : α
  hi : α
  le : lo ≤ hi

namespace ClampedShift

def apply (f : ClampedShift α) (x : α) : α := min (max (x + f.shift) f.lo) f.hi

theorem lo_le_apply (f : ClampedShift α) (x : α) : f.lo ≤ f.apply x :=
  le_min (le_max_right _ _) f.le

theorem apply_le_hi (f : ClampedShift α) (x : α) : f.apply x ≤ f.hi := min_le_right _ _

theorem apply_of_hi_le (f : ClampedShift α) {x : α} (h : f.hi ≤ x + f.shift) :
    f.apply x = f.hi :=
  min_eq_right (h.trans (le_max_left _ _))

theorem apply_of_le_lo (f : ClampedShift α) {x : α} (h : x + f.shift ≤ f.lo) :
    f.apply x = f.lo := by
  rw [apply, max_eq_right h, min_eq_left f.le]

theorem foldl_apply_mem {lo hi : α} (h : lo ≤ hi) (ds : List α) {x : α} (hlo : lo ≤ x)
    (hhi : x ≤ hi) :
    lo ≤ ds.foldl (fun x d => apply ⟨d, lo, hi, h⟩ x) x ∧
      ds.foldl (fun x d => apply ⟨d, lo, hi, h⟩ x) x ≤ hi := by
  induction ds generalizing x with
  | nil => exact ⟨hlo, hhi⟩
  | cons d ds ih => exact ih (lo_le_apply ⟨d, lo, hi, h⟩ x) (apply_le_hi ⟨d, lo, hi, h⟩ x)

section

variable [IsOrderedAddMonoid α]

theorem apply_mono (f : ClampedShift α) {x y : α} (h : x ≤ y) : f.apply x ≤ f.apply y :=
  min_le_min_right _ (max_le_max_right _ (add_le_add_left h f.shift))

/-- A clamped shift brings no two points further apart. -/
theorem abs_apply_sub_apply_le (f : ClampedShift α) (x y : α) :
    |f.apply x - f.apply y| ≤ |x - y| :=
  calc |f.apply x - f.apply y|
      ≤ |max (x + f.shift) f.lo - max (y + f.shift) f.lo| :=
        abs_inf_sub_inf_le_abs _ _ _
    _ ≤ |x + f.shift - (y + f.shift)| := abs_sup_sub_sup_le_abs _ _ _
    _ = |x - y| := by rw [add_sub_add_right_eq_sub]

/-- First `f`, then `g`. -/
def andThen (f g : ClampedShift α) : ClampedShift α where
  shift := f.shift + g.shift
  lo := g.apply f.lo
  hi := g.apply f.hi
  le := g.apply_mono f.le

theorem andThen_apply (f g : ClampedShift α) (x : α) :
    (f.andThen g).apply x = g.apply (f.apply x) := by
  have hshift : x + (f.shift + g.shift) = x + f.shift + g.shift := (add_assoc _ _ _).symm
  have hmin : g.apply (f.apply x) =
      min (g.apply (max (x + f.shift) f.lo)) (g.apply f.hi) :=
    Monotone.map_min fun _ _ h => g.apply_mono h
  have hmax : g.apply (max (x + f.shift) f.lo) =
      max (g.apply (x + f.shift)) (g.apply f.lo) :=
    Monotone.map_max fun _ _ h => g.apply_mono h
  have hlo := g.lo_le_apply f.lo
  have hhi := g.apply_le_hi f.hi
  have hle : g.apply f.lo ≤ g.apply f.hi := g.apply_mono f.le
  rw [hmin, hmax]
  show min (max (x + (f.shift + g.shift)) (g.apply f.lo)) (g.apply f.hi) =
    min (max (min (max (x + f.shift + g.shift) g.lo) g.hi) (g.apply f.lo)) (g.apply f.hi)
  rw [hshift, max_min_distrib_right, max_assoc, max_eq_right hlo, min_assoc,
    min_eq_right (hhi.trans (le_max_left _ _))]

/-- Shifts within the same bounds, one after the other. -/
def shifts {lo hi : α} (h : lo ≤ hi) : List α → ClampedShift α
  | [] => ⟨0, lo, hi, h⟩
  | d :: ds => andThen ⟨d, lo, hi, h⟩ (shifts h ds)

theorem shifts_shift {lo hi : α} (h : lo ≤ hi) (ds : List α) : (shifts h ds).shift = ds.sum := by
  induction ds with
  | nil => rfl
  | cons d ds ih => rw [List.sum_cons, ← ih]; rfl

theorem shifts_bounds {lo hi : α} (h : lo ≤ hi) (ds : List α) :
    lo ≤ (shifts h ds).lo ∧ (shifts h ds).hi ≤ hi := by
  induction ds with
  | nil => exact ⟨le_rfl, le_rfl⟩
  | cons d ds ih =>
    exact ⟨ih.1.trans (lo_le_apply _ _), (apply_le_hi _ _).trans ih.2⟩

theorem shifts_apply {lo hi : α} (h : lo ≤ hi) (ds : List α) {x : α} (hlo : lo ≤ x)
    (hhi : x ≤ hi) :
    (shifts h ds).apply x = ds.foldl (fun x d => apply ⟨d, lo, hi, h⟩ x) x := by
  induction ds generalizing x with
  | nil => simp [shifts, apply, hlo, hhi]
  | cons d ds ih =>
    show (andThen _ _).apply x = _
    rw [andThen_apply, List.foldl_cons]
    exact ih (lo_le_apply ⟨d, lo, hi, h⟩ x) (apply_le_hi ⟨d, lo, hi, h⟩ x)

/-- Shifts that add up to the way between the bounds bring all points together. -/
theorem shifts_const {lo hi : α} (h : lo ≤ hi) {ds : List α} (hfar : hi - lo ≤ |ds.sum|)
    {x y : α} (hx : lo ≤ x) (hx' : x ≤ hi) (hy : lo ≤ y) (hy' : y ≤ hi) :
    (shifts h ds).apply x = (shifts h ds).apply y := by
  obtain ⟨hbelow, habove⟩ := shifts_bounds h ds
  rcases le_abs.mp hfar with hup | hdown
  · have hend {z : α} (hz : lo ≤ z) : (shifts h ds).apply z = (shifts h ds).hi := by
      apply apply_of_hi_le
      rw [shifts_shift]
      calc (shifts h ds).hi ≤ hi := habove
        _ = lo + (hi - lo) := by abel
        _ ≤ z + ds.sum := add_le_add hz hup
    rw [hend hx, hend hy]
  · have hend {z : α} (hz : z ≤ hi) : (shifts h ds).apply z = (shifts h ds).lo := by
      apply apply_of_le_lo
      rw [shifts_shift]
      calc z + ds.sum ≤ hi + -(hi - lo) := add_le_add hz (le_neg.mp hdown)
        _ = lo := by abel
        _ ≤ (shifts h ds).lo := hbelow
    rw [hend hx', hend hy']

theorem abs_foldl_apply_sub_le {lo hi : α} (h : lo ≤ hi) (ds : List α) (x y : α) :
    |ds.foldl (fun x d => apply ⟨d, lo, hi, h⟩ x) x -
      ds.foldl (fun x d => apply ⟨d, lo, hi, h⟩ x) y| ≤ |x - y| := by
  induction ds generalizing x y with
  | nil => exact le_rfl
  | cons d ds ih => exact (ih _ _).trans (abs_apply_sub_apply_le ⟨d, lo, hi, h⟩ x y)

/-- Two points that start between the bounds are together as soon as some of the shifts have
added up to the way between them. -/
theorem foldl_apply_eq {lo hi : α} (h : lo ≤ hi) {ds es : List α} (hes : es <:+: ds)
    (hfar : hi - lo ≤ |es.sum|) {x y : α} (hx : lo ≤ x) (hx' : x ≤ hi) (hy : lo ≤ y)
    (hy' : y ≤ hi) :
    ds.foldl (fun x d => apply ⟨d, lo, hi, h⟩ x) x =
      ds.foldl (fun x d => apply ⟨d, lo, hi, h⟩ x) y := by
  obtain ⟨before, after, rfl⟩ := hes
  obtain ⟨hxlo, hxhi⟩ := foldl_apply_mem h before hx hx'
  obtain ⟨hylo, hyhi⟩ := foldl_apply_mem h before hy hy'
  have htogether := shifts_const h hfar hxlo hxhi hylo hyhi
  rw [shifts_apply h es hxlo hxhi, shifts_apply h es hylo hyhi] at htogether
  rw [List.foldl_append, List.foldl_append, List.foldl_append, List.foldl_append, htogether]

end

end ClampedShift

end Deskflow
