import CadHarness.Lib.Fallible
import CadHarness.Takeoff.Welds
import Mathlib.Algebra.BigOperators.Group.List.Basic
import Mathlib.Data.List.ReduceOption

/-!
# When the welds of a drawing are conserved

A weld is counted for the parts whose outline contains the centre of its box.
-/

namespace CadHarness.Takeoff
open CadHarness.Geometry CadHarness.Lib

variable {tolerance : ToleranceProfile} {weldEdges : List String} {entities : List Drawing.EntityRecord}
  {roots : List AssembledContour} {root : AssembledContour} {lines : List (ℝ × List String)} {entityRef : String}

/-- The outline of the part contains the centre of the box around the weld. -/
def CenteredIn (tolerance : ToleranceProfile) (entities : List Drawing.EntityRecord) (entityRef : String)
    (root : AssembledContour) : Prop :=
  ∃ outline entity, asPolyline tolerance root = .ok outline ∧ entityOf entities entityRef = some entity ∧
    ContainsPoint outline (boxCenter entity) tolerance

noncomputable section
open Classical

/-- The length of a declared weld, where it has one. -/
def weldedLength (entities : List Drawing.EntityRecord) (entityRef : String) : ℝ :=
  match entityOf entities entityRef with
  | none => 0
  | some entity =>
      match entityLength entity.geometry with
      | .ok (some length) => length
      | _ => 0

theorem ownedLength_ok {outline : Polyline2D} {length : Option ℝ} (houtline : asPolyline tolerance root = .ok outline)
    (h : ownedLength tolerance entities outline entityRef = .ok length) :
    length = if CenteredIn tolerance entities entityRef root then some (weldedLength entities entityRef) else none := by
  unfold ownedLength at h
  cases hentity : entityOf entities entityRef with
  | none => simp [hentity] at h
  | some entity =>
      have hcentered : CenteredIn tolerance entities entityRef root ↔
          ContainsPoint outline (boxCenter entity) tolerance := by
        constructor
        · rintro ⟨outline', entity', houtline', hentity', hcontains⟩
          obtain rfl := Except.ok.inj (houtline.symm.trans houtline')
          obtain rfl := Option.some.inj (hentity.symm.trans hentity')
          exact hcontains
        · intro hcontains
          exact ⟨outline, entity, houtline, hentity, hcontains⟩
      rw [hentity] at h
      dsimp only at h
      split at h
      · rename_i hcontains
        rw [if_pos (hcentered.mpr hcontains)]
        obtain ⟨found, hfound, h⟩ := Fallible.bind_eq_ok.mp h
        cases found with
        | none => simp at h
        | some l =>
            rw [← Except.ok.inj h, weldedLength, hentity]
            dsimp only
            rw [hfound]
      · rename_i hcontains
        rw [if_neg (fun hc => hcontains (hcentered.mp hc)), ← Except.ok.inj h]

theorem ownedLengths_ok {outline : Polyline2D} {lengths : List (Option ℝ)}
    (houtline : asPolyline tolerance root = .ok outline)
    (h : weldEdges.mapM (ownedLength tolerance entities outline) = .ok lengths) :
    lengths = weldEdges.map fun entityRef =>
      if CenteredIn tolerance entities entityRef root then some (weldedLength entities entityRef) else none := by
  have hall := Fallible.mapM_eq_ok.mp h
  clear h
  induction hall with
  | nil => rfl
  | cons hlength hrest ih => rw [ownedLength_ok houtline hlength, List.map_cons, ← ih]

theorem sum_some (p : String → Prop) (f : String → ℝ) (l : List String) :
    (l.map fun a => if p a then some (f a) else none).reduceOption.sum = ((l.filter fun a => p a).map f).sum := by
  induction l with
  | nil => rfl
  | cons a l ih => by_cases h : p a <;> simp [h, ih]

theorem zip_some (p : String → Prop) (f : String → ℝ) (l : List String) :
    ((l.zip (l.map fun a => if p a then some (f a) else none)).filter fun weld => weld.2.isSome).map Prod.fst =
      l.filter fun a => p a := by
  induction l with
  | nil => rfl
  | cons a l ih => by_cases h : p a <;> simp [h, ih]

/-- A part line: the welds that are centred in the part. -/
theorem weldLength_ok {line : ℝ × List String} (h : weldLength tolerance weldEdges entities root = .ok line) :
    line = (((weldEdges.filter fun entityRef => CenteredIn tolerance entities entityRef root).map
        (weldedLength entities)).sum,
      weldEdges.filter fun entityRef => CenteredIn tolerance entities entityRef root) := by
  obtain ⟨outline, houtline, h⟩ := Fallible.bind_eq_ok.mp h
  obtain ⟨lengths, hlengths, h⟩ := Fallible.bind_eq_ok.mp h
  rw [← Except.ok.inj h, ownedLengths_ok houtline hlengths, sum_some, zip_some]

/-! ## Conservation -/

/-- The lengths that the parts report, weld by weld. -/
theorem sum_by_weld (roots : List AssembledContour) :
    (roots.map fun root => ((weldEdges.filter fun entityRef => CenteredIn tolerance entities entityRef root).map
      (weldedLength entities)).sum).sum =
    (weldEdges.map fun entityRef => ((roots.filter fun root => CenteredIn tolerance entities entityRef root).length : ℝ) *
      weldedLength entities entityRef).sum := by
  induction roots with
  | nil => simp
  | cons root roots ih =>
      have hroot : ((weldEdges.filter fun entityRef => CenteredIn tolerance entities entityRef root).map
          (weldedLength entities)).sum = (weldEdges.map fun entityRef =>
            if CenteredIn tolerance entities entityRef root then weldedLength entities entityRef else 0).sum := by
        clear ih
        induction weldEdges with
        | nil => rfl
        | cons entityRef weldEdges ih => by_cases h : CenteredIn tolerance entities entityRef root <;> simp [h, ih]
      rw [List.map_cons, List.sum_cons, ih, hroot, ← List.sum_map_add]
      congr 1
      apply List.map_congr_left
      intro entityRef _
      by_cases h : CenteredIn tolerance entities entityRef root
      · simp [h]
        ring
      · simp [h]

/-- Every declared weld is counted for one part, and the parts report the length of all of them. -/
structure Conserved (weldEdges : List String) (entities : List Drawing.EntityRecord) (lines : List (ℝ × List String)) :
    Prop where
  counted : ∀ entityRef ∈ weldEdges, (lines.filter fun line => entityRef ∈ line.2).length = 1
  lengths : (lines.map Prod.fst).sum = (weldEdges.map (weldedLength entities)).sum

/-- The welds are conserved exactly when the box of each is centred in one part. -/
theorem weldLines_conserved_iff (h : weldLines tolerance weldEdges entities roots = .ok lines) :
    Conserved weldEdges entities lines ↔ ∀ entityRef ∈ weldEdges,
      (roots.filter fun root => CenteredIn tolerance entities entityRef root).length = 1 := by
  have hlines : lines = roots.map fun root =>
      (((weldEdges.filter fun entityRef => CenteredIn tolerance entities entityRef root).map
          (weldedLength entities)).sum,
        weldEdges.filter fun entityRef => CenteredIn tolerance entities entityRef root) := by
    have hall := Fallible.mapM_eq_ok.mp h
    clear h
    induction hall with
    | nil => rfl
    | cons hline hrest ih => rw [weldLength_ok hline, List.map_cons, ← ih]
  have hcount : ∀ entityRef ∈ weldEdges, (lines.filter fun line => entityRef ∈ line.2).length =
      (roots.filter fun root => CenteredIn tolerance entities entityRef root).length := by
    intro entityRef hmem
    rw [hlines, List.filter_map, List.length_map]
    congr 1
    apply List.filter_congr
    simp [hmem]
  constructor
  · intro hconserved entityRef hmem
    rw [← hcount entityRef hmem, hconserved.counted entityRef hmem]
  · intro hone
    refine ⟨fun entityRef hmem => (hcount entityRef hmem).trans (hone entityRef hmem), ?_⟩
    rw [hlines, List.map_map]
    refine (sum_by_weld roots).trans ?_
    congr 1
    apply List.map_congr_left
    intro entityRef hmem
    rw [hone entityRef hmem, Nat.cast_one, one_mul]

/-! ## A weld around the corner of a bracket -/

def side (start finish : Point2D) : EdgeRecord := ⟨.line ⟨start, finish⟩, "P1"⟩

/-- The sides of an angle bracket. -/
def bracketSides : List EdgeRecord :=
  [side ⟨0, 0⟩ ⟨10, 0⟩, side ⟨10, 0⟩ ⟨10, 1⟩, side ⟨10, 1⟩ ⟨1, 1⟩, side ⟨1, 1⟩ ⟨1, 10⟩, side ⟨1, 10⟩ ⟨0, 10⟩,
    side ⟨0, 10⟩ ⟨0, 0⟩]

def bracket : AssembledContour :=
  Chain.assembled ⟨bracketSides, List.cons_ne_nil _ _⟩

/-- The weld follows the two long sides of the bracket. -/
def cornerWeld : Drawing.EntityRecord :=
  .mk "W1" "AcDbPolyline" "WELD" true "model"
    (.polyline [{ pointMm := (10, 0) }, { pointMm := (0, 0) }, { pointMm := (0, 10) }] false) ⟨0, 0, 10, 10⟩ false

def bracketOutline : Polyline2D where
  vertices := [⟨0, 0⟩, ⟨10, 0⟩, ⟨10, 1⟩, ⟨1, 1⟩, ⟨1, 10⟩, ⟨0, 10⟩]
  closed := true
  two_le := by decide

theorem bracket_asPolyline : asPolyline {} bracket = .ok bracketOutline := by
  have hpoints : bracket.contour.edges.mapM (edgePoints 0.01) = .ok [[⟨0, 0⟩, ⟨10, 0⟩], [⟨10, 0⟩, ⟨10, 1⟩],
      [⟨10, 1⟩, ⟨1, 1⟩], [⟨1, 1⟩, ⟨1, 10⟩], [⟨1, 10⟩, ⟨0, 10⟩], [⟨0, 10⟩, ⟨0, 0⟩]] := rfl
  have hvertices : contourVertices bracket.contour 0.01 = .ok bracketOutline.vertices := by
    unfold contourVertices
    rw [hpoints]
    have hclosing : dropClosing 0.01 (joinPoints [[⟨0, 0⟩, ⟨10, 0⟩], [⟨10, 0⟩, ⟨10, 1⟩], [⟨10, 1⟩, ⟨1, 1⟩],
        [⟨1, 1⟩, ⟨1, 10⟩], [⟨1, 10⟩, ⟨0, 10⟩], [⟨0, 10⟩, ⟨0, 0⟩]]) = bracketOutline.vertices := by
      simp [joinPoints, dropClosing, Point2D.distanceTo, bracketOutline]
      norm_num
    exact congrArg Except.ok hclosing
  unfold asPolyline
  rw [hvertices]
  rfl

theorem cornerWeld_outside : ¬ ContainsPoint bracketOutline (boxCenter cornerWeld) {} := by
  have hcenter : boxCenter cornerWeld = ⟨5, 5⟩ := by
    simp [boxCenter, cornerWeld, Drawing.EntityRecord.boundingBoxMm]
    norm_num
  rw [hcenter]
  have hsegments : bracketOutline.segments = [(⟨0, 0⟩, ⟨10, 0⟩), (⟨10, 0⟩, ⟨10, 1⟩), (⟨10, 1⟩, ⟨1, 1⟩), (⟨1, 1⟩, ⟨1, 10⟩),
      (⟨1, 10⟩, ⟨0, 10⟩), (⟨0, 10⟩, ⟨0, 0⟩)] := rfl
  rintro (hboundary | hinside)
  · obtain ⟨s, hs, hnear⟩ := hboundary
    rw [hsegments] at hs
    simp only [List.mem_cons, List.not_mem_nil, or_false] at hs
    unfold ToleranceProfile.IsCoincident pointToSegmentDistance Point2D.distanceTo at hnear
    rcases hs with rfl | rfl | rfl | rfl | rfl | rfl <;>
      norm_num [Point2D.vectorTo, Vector2D.dot, Real.sqrt_le_iff] at hnear
  · rw [hsegments] at hinside
    simp only [List.foldl_cons, List.foldl_nil] at hinside
    norm_num [RayCrosses] at hinside

theorem bracket_welds : weldLines {} ["W1"] [cornerWeld] [bracket] = .ok [(0, [])] := by
  have howned : ownedLength {} [cornerWeld] bracketOutline "W1" = .ok none := by
    have hentity : entityOf [cornerWeld] "W1" = some cornerWeld := by
      simp [entityOf, cornerWeld, Drawing.EntityRecord.entityRef]
    rw [ownedLength, hentity]
    exact if_neg cornerWeld_outside
  have hlengths : ["W1"].mapM (ownedLength {} [cornerWeld] bracketOutline) = .ok [none] :=
    Fallible.mapM_eq_ok.mpr (.cons howned .nil)
  have hline : weldLength {} ["W1"] [cornerWeld] bracket = .ok (0, []) := by
    refine Fallible.bind_eq_ok.mpr ⟨_, bracket_asPolyline, Fallible.bind_eq_ok.mpr ⟨_, hlengths, ?_⟩⟩
    simp
  exact Fallible.mapM_eq_ok.mpr (.cons hline .nil)

/-- A weld on the outline of the only part is dropped. -/
theorem corner_weld_dropped : ∃ lines, weldLines {} ["W1"] [cornerWeld] [bracket] = .ok lines ∧
    ¬ Conserved ["W1"] [cornerWeld] lines := by
  refine ⟨_, bracket_welds, ?_⟩
  intro hconserved
  have hcount := hconserved.counted "W1" (List.mem_singleton_self _)
  simp at hcount

theorem weldLines_conserved_iff_bracket : ∃ lines, weldLines {} ["W1"] [cornerWeld] [bracket] = .ok lines ∧
    (Conserved ["W1"] [cornerWeld] lines ↔ ∀ entityRef ∈ ["W1"],
      ([bracket].filter fun root => CenteredIn {} [cornerWeld] entityRef root).length = 1) :=
  ⟨_, bracket_welds, weldLines_conserved_iff bracket_welds⟩

end

end CadHarness.Takeoff
