import CadHarness.Geometry.ComponentTheorems
import CadHarness.Geometry.FilletTheorems

/-!
# Closed polylines among other edges

The edges of a closed polyline lie in one pool with all others. The polyline is a contour of its own unless a chain
that was begun before it takes one of its edges.
-/

namespace CadHarness.Geometry
open CadHarness.Lib Complex

/-! ## Edges of a polyline -/

theorem exp_four_arctan (b : ℝ) : exp (↑(4 * Real.arctan b) * I) = ((1 + b * I) ^ 2 / (1 + b ^ 2)) ^ 2 := by
  have hpos : 0 < 1 + b ^ 2 := by positivity
  have hroot : (√(1 + b ^ 2) : ℂ) ^ 2 = 1 + b ^ 2 := by
    rw [← ofReal_pow, Real.sq_sqrt hpos.le]
    push_cast
    rfl
  have hne : (√(1 + b ^ 2) : ℂ) ≠ 0 := by
    rw [Ne, ofReal_eq_zero]
    exact (Real.sqrt_pos.mpr hpos).ne'
  have hone : exp (↑(Real.arctan b) * I) = (1 + b * I) / √(1 + b ^ 2) := by
    rw [exp_mul_I, ← ofReal_cos, ← ofReal_sin, Real.cos_arctan, Real.sin_arctan]
    push_cast
    field_simp
  have hpow : (↑(4 * Real.arctan b) * I : ℂ) = (4 : ℕ) * (↑(Real.arctan b) * I) := by
    push_cast
    ring
  rw [hpow, exp_nat_mul, hone, div_pow, div_pow, ← hroot]
  ring

theorem normalizeBulge_isOk {start finish : Point2D} {bulge : ℝ} (hchord : 0 < start.distanceTo finish)
    (hbulge : ¬ IsClose bulge 0 1e-15) : ∃ c, normalizeBulge start finish bulge = .ok c := by
  have hne : bulge ≠ 0 := by
    rintro rfl
    exact hbulge (by unfold IsClose; norm_num)
  have hradius : 0 < start.distanceTo finish * (1 + bulge * bulge) / (4 * |bulge|) := by
    have := abs_pos.mpr hne
    have := mul_self_nonneg bulge
    positivity
  have hturn : |Real.arctan bulge| < Real.pi / 2 :=
    abs_lt.mpr ⟨Real.neg_pi_div_two_lt_arctan bulge, Real.arctan_lt_pi_div_two bulge⟩
  have hsweep : degrees (4 * Real.arctan bulge) ≠ 0 := by
    unfold degrees
    have := Real.arctan_eq_zero_iff.not.mpr hne
    have := Real.pi_pos
    positivity
  have hle : |degrees (4 * Real.arctan bulge)| ≤ 360 := by
    have hpi := Real.pi_pos
    have hfactor : 0 < 180 / Real.pi := by positivity
    have hfull : 4 * (Real.pi / 2) * (180 / Real.pi) = 360 := by
      field_simp
      norm_num
    rw [degrees, abs_mul, abs_mul, abs_of_pos (by norm_num : (0 : ℝ) < 4), abs_of_pos hfactor, ← hfull]
    gcongr
  unfold normalizeBulge
  dsimp only
  rw [if_neg (by rw [not_or, not_le]; exact ⟨hchord, hbulge⟩)]
  obtain ⟨c, hc, -⟩ := CurveFields.checked_arc _ _ hradius hsweep hle
  exact ⟨c, hc⟩

/-- The arc of a bulge goes from the one vertex to the other. -/
theorem normalizeBulge_ends {start finish : Point2D} {bulge : ℝ} {c : CurveParams}
    (h : normalizeBulge start finish bulge = .ok c) : c.startPoint = start ∧ c.endPoint = finish := by
  unfold normalizeBulge at h
  dsimp only at h
  split at h
  · cases h
  next hproper =>
  rw [not_or, not_le] at hproper
  obtain ⟨hchord, hbulge⟩ := hproper
  have hne : bulge ≠ 0 := by
    rintro rfl
    exact hbulge (by unfold IsClose; norm_num)
  have hcne : (bulge : ℂ) ≠ 0 := ofReal_ne_zero.mpr hne
  set center : Point2D :=
    ⟨(start.x + finish.x) / 2 - (finish.y - start.y) * (start.distanceTo finish * (1 - bulge * bulge) / (4 * bulge)) /
        start.distanceTo finish,
      (start.y + finish.y) / 2 + (finish.x - start.x) * (start.distanceTo finish * (1 - bulge * bulge) / (4 * bulge)) /
        start.distanceTo finish⟩ with hcenter
  have hplace : center.toComplex = (start.toComplex + finish.toComplex) / 2 +
      I * (finish.toComplex - start.toComplex) * ((1 - bulge * bulge) / (4 * bulge)) := by
    have hchord' := hchord.ne'
    obtain ⟨m, hm⟩ : ∃ m : ℝ, (1 - bulge * bulge) / (4 * bulge) = m := ⟨_, rfl⟩
    have hx : center.x = (start.x + finish.x) / 2 - (finish.y - start.y) * m := by
      rw [hcenter, ← hm]
      field_simp
    have hy : center.y = (start.y + finish.y) / 2 + (finish.x - start.x) * m := by
      rw [hcenter, ← hm]
      field_simp
    have hfactor : ((1 - bulge * bulge) / (4 * bulge) : ℂ) = (m : ℂ) := by
      rw [← hm]
      push_cast
      rfl
    rw [hfactor]
    apply Complex.ext
    · simp [Point2D.toComplex, hx]
      ring
    · simp [Point2D.toComplex, hy]
  -- Seen from the center, the vertices are turned by the same angle from the chord.
  have hstart : start.toComplex - center.toComplex =
      -(I * (1 - bulge * I) ^ 2 * (finish.toComplex - start.toComplex) / (4 * bulge)) := by
    rw [hplace]
    field_simp
    ring_nf
    simp
    ring
  have hfinish : finish.toComplex - center.toComplex =
      -(I * (1 + bulge * I) ^ 2 * (finish.toComplex - start.toComplex) / (4 * bulge)) := by
    rw [hplace]
    field_simp
    ring_nf
    simp
    ring
  have hnorm : ‖start.toComplex - center.toComplex‖ = start.distanceTo finish * (1 + bulge * bulge) / (4 * |bulge|) := by
    have hturn : ‖1 - bulge * I‖ ^ 2 = 1 + bulge * bulge := by
      rw [Complex.sq_norm, Complex.normSq_apply]
      simp
    rw [hstart, norm_neg, norm_div, norm_mul, norm_mul, norm_I, one_mul, norm_pow, hturn, norm_mul, Complex.norm_real,
      Real.norm_eq_abs, Point2D.distanceTo_eq_dist, dist_comm, dist_eq_norm, mul_comm]
    simp
  have hpoint := normalizeArc_pointAt h hnorm
  constructor
  · apply Point2D.toComplex_injective
    rw [CurveParams.startPoint, hpoint 0, mul_zero, ofReal_zero, zero_mul, exp_zero, mul_one, add_sub_cancel]
  · apply Point2D.toComplex_injective
    have hnz : (1 + bulge ^ 2 : ℂ) ≠ 0 := by
      have hpos : (1 + bulge ^ 2 : ℝ) ≠ 0 := by positivity
      exact_mod_cast hpos
    rw [CurveParams.endPoint, hpoint 1, mul_one, radians_degrees, exp_four_arctan, ← eq_sub_iff_add_eq', hfinish, hstart]
    have hprod : (1 - bulge * I : ℂ) * (1 + bulge * I) = 1 + bulge ^ 2 := by
      ring_nf
      simp
    rw [← hprod]
    rw [← hprod] at hnz
    have hleft := left_ne_zero_of_mul hnz
    have hright := right_ne_zero_of_mul hnz
    rw [mul_comm (bulge : ℂ) I] at hleft hright ⊢
    field_simp

/-! ## The pool -/

section pool

variable {tolerance : ToleranceProfile} {ref : String} {chain : Chain} {own unused edges : List EdgeRecord} {p : Point2D}

@[simp] theorem EdgeRecord.reverse_entityRef (record : EdgeRecord) : record.reverse.entityRef = record.entityRef := by
  rcases record with ⟨_ | c, ref⟩ <;> rfl

/-- The edge that is found stands at its place in the pool, one way or the other. -/
theorem findMatch_getElem {coincidenceMm : ℝ} {index : Nat} {record : EdgeRecord}
    (h : findMatch coincidenceMm p unused = some (index, record)) :
    ∃ candidate, unused[index]? = some candidate ∧ candidate.entityRef = record.entityRef := by
  induction unused generalizing index with
  | nil => cases h
  | cons candidate rest ih =>
      unfold findMatch at h
      split at h
      · obtain ⟨rfl, rfl⟩ := Prod.mk.inj (Option.some.inj h)
        exact ⟨_, rfl, rfl⟩
      split at h
      · obtain ⟨rfl, rfl⟩ := Prod.mk.inj (Option.some.inj h)
        exact ⟨_, rfl, (candidate.reverse_entityRef).symm⟩
      obtain ⟨⟨i, r⟩, hrest, heq⟩ := Option.map_eq_some_iff.mp h
      obtain ⟨rfl, rfl⟩ := Prod.mk.inj heq
      exact ih hrest

/-- The edges of an entity stand together in the pool, and all others are of other entities. -/
structure Pooled (ref : String) (own unused : List EdgeRecord) : Prop where
  owned : ∀ record ∈ own, record.entityRef = ref
  placed : ∃ before after, unused = before ++ own ++ after ∧ ∀ record ∈ before ++ after, record.entityRef ≠ ref

/-- They stay together where another edge is taken. -/
theorem Pooled.eraseIdx {index : Nat} {record : EdgeRecord} (h : Pooled ref own unused)
    (hmatch : findMatch tolerance.coincidenceMm p unused = some (index, record)) (hother : record.entityRef ≠ ref) :
    Pooled ref own (unused.eraseIdx index) := by
  obtain ⟨candidate, hcandidate, href⟩ := findMatch_getElem hmatch
  obtain ⟨before, after, rfl, hothers⟩ := h.placed
  refine ⟨h.owned, ?_⟩
  rw [List.append_assoc] at hcandidate ⊢
  by_cases hbefore : index < before.length
  · refine ⟨before.eraseIdx index, after, ?_, ?_⟩
    · rw [List.eraseIdx_append_of_lt_length hbefore, List.append_assoc]
    · intro r hr
      refine hothers r ?_
      rcases List.mem_append.mp hr with hr | hr
      · exact List.mem_append_left _ (List.mem_of_mem_eraseIdx hr)
      · exact List.mem_append_right _ hr
  · rw [not_lt] at hbefore
    rw [List.getElem?_append_right hbefore] at hcandidate
    have hown : own.length ≤ index - before.length := by
      by_contra hlt
      rw [List.getElem?_append_left (not_le.mp hlt)] at hcandidate
      exact hother (href ▸ h.owned candidate (List.mem_of_getElem? hcandidate))
    refine ⟨before, after.eraseIdx (index - before.length - own.length), ?_, ?_⟩
    · rw [List.eraseIdx_append_of_length_le hbefore, List.eraseIdx_append_of_length_le hown, List.append_assoc]
    · intro r hr
      refine hothers r ?_
      rcases List.mem_append.mp hr with hr | hr
      · exact List.mem_append_left _ hr
      · exact List.mem_append_right _ (List.mem_of_mem_eraseIdx hr)

/-! ## Chains that spare an entity -/

/-- The first loop over a chain finds no edge of the entity. -/
inductive SparesEnd (tolerance : ToleranceProfile) (ref : String) : Chain → List EdgeRecord → Prop
  | ends {chain : Chain} {unused : List EdgeRecord}
      (h : findMatch tolerance.coincidenceMm chain.last.endPoint unused = none) : SparesEnd tolerance ref chain unused
  | closes {chain : Chain} {unused : List EdgeRecord} {index : Nat} {record : EdgeRecord}
      (h : findMatch tolerance.coincidenceMm chain.last.endPoint unused = some (index, record))
      (hother : record.entityRef ≠ ref) (hclosed : tolerance.IsCoincident (chain.append record).gap) :
      SparesEnd tolerance ref chain unused
  | goes {chain : Chain} {unused : List EdgeRecord} {index : Nat} {record : EdgeRecord}
      (h : findMatch tolerance.coincidenceMm chain.last.endPoint unused = some (index, record))
      (hother : record.entityRef ≠ ref) (hrest : SparesEnd tolerance ref (chain.append record) (unused.eraseIdx index)) :
      SparesEnd tolerance ref chain unused

/-- The second loop finds none. -/
inductive SparesStart (tolerance : ToleranceProfile) (ref : String) : Chain → List EdgeRecord → Prop
  | closed {chain : Chain} {unused : List EdgeRecord} (h : tolerance.IsCoincident chain.gap) :
      SparesStart tolerance ref chain unused
  | ends {chain : Chain} {unused : List EdgeRecord}
      (h : findMatch tolerance.coincidenceMm chain.first.startPoint unused = none) : SparesStart tolerance ref chain unused
  | goes {chain : Chain} {unused : List EdgeRecord} {index : Nat} {record : EdgeRecord}
      (h : findMatch tolerance.coincidenceMm chain.first.startPoint unused = some (index, record))
      (hother : record.entityRef ≠ ref)
      (hrest : SparesStart tolerance ref (chain.insert record.reverse) (unused.eraseIdx index)) :
      SparesStart tolerance ref chain unused

/-- No chain finds an edge of the entity until one is begun with it. -/
inductive Spares (tolerance : ToleranceProfile) (ref : String) : List EdgeRecord → Prop
  | reached {record : EdgeRecord} {unused : List EdgeRecord} (h : record.entityRef = ref) :
      Spares tolerance ref (record :: unused)
  | passes {record : EdgeRecord} {unused : List EdgeRecord} (hother : record.entityRef ≠ ref)
      (hend : SparesEnd tolerance ref (.single record) unused)
      (hstart : SparesStart tolerance ref (extendEnd tolerance (.single record) unused).1
        (extendEnd tolerance (.single record) unused).2)
      (hrest : Spares tolerance ref (traceChain tolerance record unused).2) : Spares tolerance ref (record :: unused)

theorem extendEnd_of_none (h : findMatch tolerance.coincidenceMm chain.last.endPoint unused = none) :
    extendEnd tolerance chain unused = (chain, unused) := by
  rw [extendEnd]
  split
  · rfl
  next hsome =>
    rw [h] at hsome
    cases hsome

open Classical in
theorem extendEnd_of_some {index : Nat} {record : EdgeRecord}
    (h : findMatch tolerance.coincidenceMm chain.last.endPoint unused = some (index, record)) :
    extendEnd tolerance chain unused = if tolerance.IsCoincident (chain.append record).gap then
      (chain.append record, unused.eraseIdx index) else extendEnd tolerance (chain.append record) (unused.eraseIdx index) := by
  rw [extendEnd]
  split
  next hnone =>
    rw [h] at hnone
    cases hnone
  next hsome =>
    obtain ⟨rfl, rfl⟩ := Prod.mk.inj (Option.some.inj (h.symm.trans hsome))
    congr

theorem extendStart_of_some {index : Nat} {record : EdgeRecord} (hopen : ¬ tolerance.IsCoincident chain.gap)
    (h : findMatch tolerance.coincidenceMm chain.first.startPoint unused = some (index, record)) :
    extendStart tolerance chain unused = extendStart tolerance (chain.insert record.reverse) (unused.eraseIdx index) := by
  rw [extendStart, if_neg hopen]
  split
  next hnone =>
    rw [h] at hnone
    cases hnone
  next hsome =>
    obtain ⟨rfl, rfl⟩ := Prod.mk.inj (Option.some.inj (h.symm.trans hsome))
    rfl

theorem extendStart_of_none (h : findMatch tolerance.coincidenceMm chain.first.startPoint unused = none) :
    extendStart tolerance chain unused = (chain, unused) := by
  rw [extendStart]
  split
  · rfl
  split
  · rfl
  next hsome =>
    rw [h] at hsome
    cases hsome

theorem SparesEnd.pooled (h : SparesEnd tolerance ref chain unused) (hpooled : Pooled ref own unused) :
    Pooled ref own (extendEnd tolerance chain unused).2 := by
  induction h with
  | ends h =>
      rw [extendEnd_of_none h]
      exact hpooled
  | closes h hother hclosed =>
      rw [extendEnd_of_some h, if_pos hclosed]
      exact hpooled.eraseIdx h hother
  | goes h hother _ ih =>
      rw [extendEnd_of_some h]
      split
      · exact hpooled.eraseIdx h hother
      · exact ih (hpooled.eraseIdx h hother)

theorem SparesStart.pooled (h : SparesStart tolerance ref chain unused) (hpooled : Pooled ref own unused) :
    Pooled ref own (extendStart tolerance chain unused).2 := by
  induction h with
  | closed h =>
      rw [extendStart_of_closed h]
      exact hpooled
  | ends h =>
      rw [extendStart_of_none h]
      exact hpooled
  | @goes chain unused index record h hother _ ih =>
      by_cases hclosed : tolerance.IsCoincident chain.gap
      · rw [extendStart_of_closed hclosed]
        exact hpooled
      · rw [extendStart_of_some hclosed h]
        exact ih (hpooled.eraseIdx h hother)

theorem extendEnd_subset (chain : Chain) (unused : List EdgeRecord) :
    chain.edges ⊆ (extendEnd tolerance chain unused).1.edges := by
  fun_induction extendEnd tolerance chain unused with
  | case1 => exact List.Subset.refl _
  | case2 chain => exact List.subset_append_left _ _
  | case3 chain unused index record h hopen ih => exact List.Subset.trans (List.subset_append_left _ _) ih

theorem extendStart_subset (chain : Chain) (unused : List EdgeRecord) :
    chain.edges ⊆ (extendStart tolerance chain unused).1.edges := by
  fun_induction extendStart tolerance chain unused with
  | case1 => exact List.Subset.refl _
  | case2 => exact List.Subset.refl _
  | case3 chain unused hopen index record h ih => exact List.Subset.trans (List.subset_cons_self _ _) ih

/-- A chain with no edge of the entity has found none. -/
theorem sparesEnd_of_others (h : ∀ record ∈ (extendEnd tolerance chain unused).1.edges, record.entityRef ≠ ref) :
    SparesEnd tolerance ref chain unused := by
  fun_induction extendEnd tolerance chain unused with
  | case1 chain unused hnone => exact .ends hnone
  | case2 chain unused index record hmatch hclosed =>
      exact .closes hmatch (h record (List.mem_append_right _ List.mem_cons_self)) hclosed
  | case3 chain unused index record hmatch hopen ih =>
      have hmem := @extendEnd_subset tolerance (chain.append record) (unused.eraseIdx index)
      exact .goes hmatch (h record (hmem (List.mem_append_right _ List.mem_cons_self))) (ih h)

theorem sparesStart_of_others (h : ∀ record ∈ (extendStart tolerance chain unused).1.edges, record.entityRef ≠ ref) :
    SparesStart tolerance ref chain unused := by
  fun_induction extendStart tolerance chain unused with
  | case1 chain unused hclosed => exact .closed hclosed
  | case2 chain unused hopen hnone => exact .ends hnone
  | case3 chain unused hopen index record hmatch ih =>
      have hmem := @extendStart_subset tolerance (chain.insert record.reverse) (unused.eraseIdx index)
      have hother := h record.reverse (hmem List.mem_cons_self)
      rw [EdgeRecord.reverse_entityRef] at hother
      exact .goes hmatch hother (ih h)

/-! ## The chain of the polyline -/

/-- An edge between two vertices. -/
def Spans (s : PolylineVertex × PolylineVertex) (record : EdgeRecord) : Prop :=
  record.startPoint = s.1.pointMm ∧ record.endPoint = s.2.pointMm

theorem segmentEdge_spans {s : PolylineVertex × PolylineVertex} {edge : ContourEdge} (h : segmentEdge s.1 s.2 = .ok edge)
    (ref : String) : Spans s ⟨edge, ref⟩ := by
  unfold segmentEdge at h
  split at h
  · obtain rfl := Except.ok.inj h
    exact ⟨rfl, rfl⟩
  · obtain ⟨c, hc, rfl⟩ := Fallible.map_eq_ok.mp h
    exact normalizeBulge_ends hc

@[simp] theorem Chain.append_last (chain : Chain) (record : EdgeRecord) : (chain.append record).last = record :=
  List.getLast_concat

@[simp] theorem Chain.append_first (chain : Chain) (record : EdgeRecord) : (chain.append record).first = chain.first :=
  List.head_append_of_ne_nil chain.edges_ne

theorem findMatch_of_start {coincidenceMm : ℝ} (hcoincidence : 0 ≤ coincidenceMm) {record : EdgeRecord}
    (h : p = record.startPoint) (rest : List EdgeRecord) : findMatch coincidenceMm p (record :: rest) = some (0, record) := by
  rw [findMatch, if_pos]
  rw [h, distanceTo_self]
  exact hcoincidence

/-- A polyline whose vertices are apart is traced from edge to edge, and is closed at its last. -/
theorem extendEnd_polyline (hcoincidence : 0 ≤ tolerance.coincidenceMm) {first v : PolylineVertex} {rest : List PolylineVertex}
    {after : List EdgeRecord} (hown : List.Forall₂ Spans ((v :: rest).zip (rest ++ [first])) own)
    (hlast : chain.last.endPoint = v.pointMm) (hfirst : chain.first.startPoint = first.pointMm)
    (hapart : ∀ w ∈ rest, ¬ tolerance.IsCoincident (w.pointMm.distanceTo first.pointMm)) :
    (extendEnd tolerance chain (own ++ after)).1.edges = chain.edges ++ own ∧
      (extendEnd tolerance chain (own ++ after)).2 = after ∧
      tolerance.IsCoincident (extendEnd tolerance chain (own ++ after)).1.gap := by
  induction rest generalizing v chain own with
  | nil =>
      obtain ⟨edge, edges, ⟨hstart, hend⟩, hedges, rfl⟩ := List.forall₂_cons_left_iff.mp hown
      obtain rfl := List.forall₂_nil_left_iff.mp hedges
      have hmatch := findMatch_of_start hcoincidence (hlast.trans hstart.symm) ([] ++ after)
      have hgap : tolerance.IsCoincident (chain.append edge).gap := by
        rw [Chain.gap, Chain.append_last, Chain.append_first, hend, hfirst, distanceTo_self]
        exact hcoincidence
      rw [List.cons_append, extendEnd_of_some hmatch, if_pos hgap]
      exact ⟨rfl, rfl, hgap⟩
  | cons w rest ih =>
      obtain ⟨edge, edges, ⟨hstart, hend⟩, hedges, rfl⟩ := List.forall₂_cons_left_iff.mp hown
      obtain ⟨hw, hrest⟩ := List.forall_mem_cons.mp hapart
      have hmatch := findMatch_of_start hcoincidence (hlast.trans hstart.symm) (edges ++ after)
      have hgap : ¬ tolerance.IsCoincident (chain.append edge).gap := by
        rw [Chain.gap, Chain.append_last, Chain.append_first, hend, hfirst]
        exact hw
      rw [List.cons_append, extendEnd_of_some hmatch, if_neg hgap]
      obtain ⟨hedges', hafter, hclosed⟩ := @ih (chain.append edge) edges w hedges
        (by rw [Chain.append_last, hend]) (by rw [Chain.append_first, hfirst]) hrest
      refine ⟨?_, hafter, hclosed⟩
      rw [List.eraseIdx_zero, List.tail_cons, hedges', Chain.append_edges, List.append_assoc, List.singleton_append]

theorem traceChain_polyline (hcoincidence : 0 ≤ tolerance.coincidenceMm) {vertices : List PolylineVertex}
    {record : EdgeRecord} {after : List EdgeRecord} (htwo : 2 ≤ vertices.length)
    (hapart : vertices.Pairwise fun v w => ¬ tolerance.IsCoincident (v.pointMm.distanceTo w.pointMm))
    (hown : List.Forall₂ Spans (segments vertices true) (record :: own)) :
    (traceChain tolerance record (own ++ after)).1.edges = record :: own ∧
      (traceChain tolerance record (own ++ after)).2 = after ∧
      tolerance.IsCoincident (traceChain tolerance record (own ++ after)).1.gap := by
  obtain ⟨first, second, rest, rfl⟩ : ∃ first second rest, vertices = first :: second :: rest := by
    match vertices, htwo with
    | first :: second :: rest, _ => exact ⟨first, second, rest, rfl⟩
  obtain ⟨⟨hstart, hend⟩, hrest⟩ := List.forall₂_cons.mp hown
  obtain ⟨hfirst, -⟩ := List.pairwise_cons.mp hapart
  obtain ⟨hedges, hafter, hclosed⟩ := @extendEnd_polyline tolerance (.single record) own hcoincidence first second rest after
    hrest hend hstart (by
      intro w hw
      rw [distanceTo_comm]
      exact hfirst w (List.mem_cons_of_mem _ hw))
  unfold traceChain
  dsimp only
  rw [extendStart_of_closed hclosed]
  exact ⟨hedges, hafter, hclosed⟩

/-- A polyline that is spared is a contour. -/
theorem Spares.contour (h : Spares tolerance ref edges) (hcoincidence : 0 ≤ tolerance.coincidenceMm)
    {vertices : List PolylineVertex} (htwo : 2 ≤ vertices.length)
    (hapart : vertices.Pairwise fun v w => ¬ tolerance.IsCoincident (v.pointMm.distanceTo w.pointMm))
    (hown : List.Forall₂ Spans (segments vertices true) own) (hpooled : Pooled ref own edges) :
    ∃ chain ∈ (traceChains tolerance edges).1, chain.edges = own := by
  induction h with
  | @reached record unused href =>
      obtain ⟨before, after, hsplit, hothers⟩ := hpooled.placed
      -- What is before the polyline is of other entities, so there is nothing.
      cases before with
      | cons r before =>
          obtain ⟨rfl, -⟩ := List.cons.inj hsplit
          exact absurd href (hothers record List.mem_cons_self)
      | nil =>
          cases own with
          | nil =>
              have hnil := List.forall₂_nil_right_iff.mp hown
              have hlength := congrArg List.length hnil
              rw [length_segments, List.length_nil] at hlength
              omega
          | cons e own =>
              obtain ⟨rfl, rfl⟩ := List.cons.inj hsplit
              obtain ⟨hedges, -, hclosed⟩ :=
                @traceChain_polyline tolerance own hcoincidence vertices record after htwo hapart hown
              exact ⟨_, traceChains_head hclosed, hedges⟩
  | @passes record unused hother hend hstart _ ih =>
      have hrest : Pooled ref own unused := by
        obtain ⟨before, after, hsplit, hothers⟩ := hpooled.placed
        refine ⟨hpooled.owned, ?_⟩
        cases before with
        | cons r before =>
            obtain ⟨-, rfl⟩ := List.cons.inj hsplit
            exact ⟨before, after, rfl, fun r hr => hothers r (List.mem_cons_of_mem _ hr)⟩
        | nil =>
            cases own with
            | cons e own =>
                obtain ⟨rfl, -⟩ := List.cons.inj hsplit
                exact absurd (hpooled.owned record List.mem_cons_self) hother
            | nil =>
                rw [List.nil_append, List.nil_append] at hsplit
                exact ⟨[], unused, rfl, fun r hr => hothers r (hsplit ▸ List.mem_cons_of_mem _ hr)⟩
      obtain ⟨chain, hchain, hedges⟩ := ih (hstart.pooled (hend.pooled hrest))
      exact ⟨chain, traceChains_rest hchain, hedges⟩

/-- How many edges are of an entity. -/
def ownCount (ref : String) (edges : List EdgeRecord) : Nat := edges.countP fun record => record.entityRef = ref

theorem ownCount_congr {edges' : List EdgeRecord} (h : (edges.map EdgeRecord.shape).Perm (edges'.map EdgeRecord.shape)) :
    ownCount ref edges = ownCount ref edges' := by
  have hrefs : (edges.map EdgeRecord.entityRef).Perm (edges'.map EdgeRecord.entityRef) :=
    perm_map_of_factors (fun a b hab => (Prod.mk.inj hab).1) h
  have hcount := hrefs.countP_eq fun r => decide (r = ref)
  rwa [List.countP_map, List.countP_map] at hcount

theorem traceChain_mem (record : EdgeRecord) (unused : List EdgeRecord) :
    record ∈ (traceChain tolerance record unused).1.edges :=
  extendStart_subset _ _ (extendEnd_subset _ _ List.mem_cons_self)

/-- Where a contour has all edges of an entity, the chain before has none. -/
theorem ownCount_rest {record : EdgeRecord}
    (hchain : chain ∈ (traceChains tolerance (traceChain tolerance record unused).2).1)
    (href : ∀ r ∈ chain.edges, r.entityRef = ref) (hcount : ownCount ref (record :: unused) = chain.edges.length) :
    (∀ r ∈ (traceChain tolerance record unused).1.edges, r.entityRef ≠ ref) ∧
      ownCount ref (traceChain tolerance record unused).2 = chain.edges.length := by
  have htraced := (@traceChain_traced tolerance record unused).1
  have hpartition := @traceChains_partition tolerance (traceChain tolerance record unused).2
  have hsplit : ownCount ref (traceChain tolerance record unused).1.edges +
      ownCount ref (traceChain tolerance record unused).2 = chain.edges.length := by
    rw [← hcount, ← ownCount_congr htraced.shapes]
    exact List.countP_append.symm
  have hle : chain.edges.length ≤ ownCount ref (traceChain tolerance record unused).2 := by
    obtain ⟨before, after, hmem⟩ := List.append_of_mem (List.mem_append_left (traceChains tolerance _).2 hchain)
    have hall : ownCount ref chain.edges = chain.edges.length :=
      List.countP_eq_length.mpr fun r hr => decide_eq_true (href r hr)
    rw [← ownCount_congr hpartition.shapes, hmem, List.flatMap_append, List.flatMap_cons, ← hall]
    exact ((List.sublist_append_left _ _).trans (List.sublist_append_right _ _)).countP_le
  have hnone : ownCount ref (traceChain tolerance record unused).1.edges = 0 := by omega
  refine ⟨fun r hr => ?_, by omega⟩
  simpa using List.countP_eq_zero.mp hnone r hr

/-- A contour of all edges of an entity leaves none for the chains before it. -/
theorem spares_of_contour (hchain : chain ∈ (traceChains tolerance edges).1) (href : ∀ r ∈ chain.edges, r.entityRef = ref)
    (hcount : ownCount ref edges = chain.edges.length) : Spares tolerance ref edges := by
  -- The chain of the first edge is not the contour, unless that edge is of the entity.
  have hstep {record : EdgeRecord} {unused : List EdgeRecord}
      (ih : chain ∈ (traceChains tolerance (traceChain tolerance record unused).2).1 →
        ownCount ref (traceChain tolerance record unused).2 = chain.edges.length →
        Spares tolerance ref (traceChain tolerance record unused).2)
      (hcount : ownCount ref (record :: unused) = chain.edges.length)
      (hor : chain = (traceChain tolerance record unused).1 ∨
        chain ∈ (traceChains tolerance (traceChain tolerance record unused).2).1) :
      Spares tolerance ref (record :: unused) := by
    by_cases hrecord : record.entityRef = ref
    · exact .reached hrecord
    rcases hor with heq | hrest
    · exact absurd (href record (heq ▸ traceChain_mem record unused)) hrecord
    obtain ⟨hothers, hrestCount⟩ := ownCount_rest hrest href hcount
    refine .passes hrecord (sparesEnd_of_others fun r hr => hothers r ?_) (sparesStart_of_others hothers)
      (ih hrest hrestCount)
    exact extendStart_subset _ _ hr
  fun_induction traceChains tolerance edges with
  | case1 => cases hchain
  | case2 record unused traced closed opened hrest hclosed ih =>
      rw [hrest] at ih
      refine hstep (fun h hc => ?_) hcount ?_
      · exact ih (by rw [hrest] at h; exact h) hc
      · rw [hrest]
        exact List.mem_cons.mp hchain
  | case3 record unused traced closed opened hrest hopen ih =>
      rw [hrest] at ih
      refine hstep (fun h hc => ?_) hcount ?_
      · exact ih (by rw [hrest] at h; exact h) hc
      · rw [hrest]
        exact .inr hchain

end pool

/-! ## The drawing -/

theorem entityEdges_ref {entity : EntityRecord} {records : List EdgeRecord} {flag : Bool}
    (h : entityEdges entity = .ok (records, flag)) : ∀ record ∈ records, record.entityRef = entity.entityRef := by
  rcases entity with ⟨ref, geometry⟩
  cases geometry with
  | line start finish =>
      obtain ⟨rfl, -⟩ := Prod.mk.inj (Except.ok.inj h)
      simp
  | arc center radius a b =>
      obtain ⟨c, -, heq⟩ := Fallible.bind_eq_ok.mp h
      obtain ⟨rfl, -⟩ := Prod.mk.inj (Except.ok.inj heq)
      simp
  | circle center radius =>
      obtain ⟨c, -, heq⟩ := Fallible.bind_eq_ok.mp h
      obtain ⟨rfl, -⟩ := Prod.mk.inj (Except.ok.inj heq)
      simp
  | polyline vertices closed =>
      obtain ⟨edges, -, heq⟩ := Fallible.bind_eq_ok.mp h
      obtain ⟨rfl, -⟩ := Prod.mk.inj (Except.ok.inj heq)
      simp

theorem entityEdges_spans {ref : String} {vertices : List PolylineVertex} {own : List EdgeRecord}
    (h : entityEdges ⟨ref, .polyline vertices true⟩ = .ok (own, false)) :
    List.Forall₂ Spans (segments vertices true) own := by
  obtain ⟨edges, hedges, heq⟩ := Fallible.bind_eq_ok.mp h
  obtain ⟨rfl, -⟩ := Prod.mk.inj (Except.ok.inj heq)
  rw [List.forall₂_map_right_iff]
  exact (Fallible.mapM_eq_ok.mp hedges).imp fun s edge hedge => segmentEdge_spans hedge ref

/-- The edges of one entity among those of the drawing. -/
theorem modelEdges_pooled {before after : List EntityRecord} {entity : EntityRecord} {own edges circles : List EdgeRecord}
    (h : modelEdges (before ++ entity :: after) = .ok (edges, circles)) (hown : entityEdges entity = .ok (own, false))
    (hunique : ∀ other ∈ before ++ after, other.entityRef ≠ entity.entityRef) :
    Pooled entity.entityRef own edges ∧ ∀ record ∈ circles, record.entityRef ≠ entity.entityRef := by
  obtain ⟨found, hfound, heq⟩ := Fallible.bind_eq_ok.mp h
  obtain ⟨rfl, rfl⟩ := Prod.mk.inj (Except.ok.inj heq)
  rw [List.mapM_append, Fallible.bind_eq_ok] at hfound
  obtain ⟨first, hfirst, hfound⟩ := hfound
  rw [List.mapM_cons, hown] at hfound
  simp only [Fallible.ok_bind] at hfound
  obtain ⟨rest, hrest, hfound⟩ := Fallible.bind_eq_ok.mp hfound
  obtain ⟨second, hsecond, hrest⟩ := Fallible.bind_eq_ok.mp hrest
  obtain rfl := Except.ok.inj hrest
  obtain rfl := Except.ok.inj hfound
  -- The edges of the other entities carry other references.
  have hothers {entities : List EntityRecord} {found : List (List EdgeRecord × Bool)}
      (hfound : entities.mapM entityEdges = .ok found) (hentities : ∀ other ∈ entities, other.entityRef ≠ entity.entityRef)
      (flag : List EdgeRecord × Bool → Bool) :
      ∀ record ∈ (found.filter flag).flatMap Prod.fst, record.entityRef ≠ entity.entityRef := by
    intro record hrecord
    obtain ⟨⟨records, b⟩, hmem, hrecord⟩ := List.mem_flatMap.mp hrecord
    obtain ⟨other, hother, hedges⟩ :=
      Fallible.mem_of_forall₂ (Fallible.mapM_eq_ok.mp hfound) (List.mem_of_mem_filter hmem)
    rw [entityEdges_ref hedges record hrecord]
    exact hentities other hother
  have hbefore := hothers hfirst fun other h => hunique other (List.mem_append_left _ h)
  have hafter := hothers hsecond fun other h => hunique other (List.mem_append_right _ h)
  constructor
  · refine ⟨entityEdges_ref hown, (first.filter fun edges => !edges.2).flatMap Prod.fst,
      (second.filter fun edges => !edges.2).flatMap Prod.fst, ?_, ?_⟩
    · simp
    · intro record hrecord
      rcases List.mem_append.mp hrecord with h | h
      · exact hbefore _ record h
      · exact hafter _ record h
  · intro record hrecord
    simp only [List.filter_append, List.filter_cons, List.flatMap_append, Bool.false_eq_true, ↓reduceIte] at hrecord
    rcases List.mem_append.mp hrecord with h | h
    · exact hbefore _ record h
    · exact hafter _ record h

theorem Pooled.ownCount {own edges : List EdgeRecord} {ref : String} (h : Pooled ref own edges) :
    ownCount ref edges = own.length := by
  obtain ⟨before, after, rfl, hothers⟩ := h.placed
  have hnone {records : List EdgeRecord} (hrecords : ∀ r ∈ records, r.entityRef ≠ ref) : Geometry.ownCount ref records = 0 :=
    List.countP_eq_zero.mpr fun r hr => by simpa using hrecords r hr
  have hbefore := hnone fun r hr => hothers r (List.mem_append_left _ hr)
  have hafter := hnone fun r hr => hothers r (List.mem_append_right _ hr)
  have hown : Geometry.ownCount ref own = own.length :=
    List.countP_eq_length.mpr fun r hr => decide_eq_true (h.owned r hr)
  unfold Geometry.ownCount at hbefore hafter hown ⊢
  rw [List.countP_append, List.countP_append, hbefore, hafter, hown, zero_add, add_zero]

variable {tolerance : ToleranceProfile}

/-- The analysis has a contour of just the edges of an entity. -/
def HasOwnContour (tolerance : ToleranceProfile) (entities : List EntityRecord) (entity : EntityRecord) : Prop :=
  ∃ analysis forest own, analyzeDrawing tolerance entities = .ok (analysis, forest) ∧
    entityEdges entity = .ok (own, false) ∧
    ∃ contour ∈ analysis.contours, (contour.edges.map EdgeRecord.bothWays).Perm (own.map EdgeRecord.bothWays)

/-- What an analysis is made of. -/
theorem analyzeDrawing_ok {entities : List EntityRecord} {analysis : ContourAnalysis} {forest : ContourForest}
    (h : analyzeDrawing tolerance entities = .ok (analysis, forest)) :
    ∃ edges circles, modelEdges entities = .ok (edges, circles) ∧
      analysis.contours = circles.map circleContour ++ (traceChains tolerance edges).1.map Chain.assembled ∧
      ∀ contour ∈ analysis.contours, ∃ polyline, asPolyline tolerance (.curves contour.contour) = .ok polyline := by
  obtain ⟨analysis', hanalysis, h⟩ := Fallible.bind_eq_ok.mp h
  obtain ⟨forest', hforest, h⟩ := Fallible.bind_eq_ok.mp h
  obtain ⟨rfl, rfl⟩ := Prod.mk.inj (Except.ok.inj h)
  obtain ⟨⟨edges, circles⟩, hedges, hcontours⟩ := Fallible.bind_eq_ok.mp hanalysis
  obtain rfl := Except.ok.inj hcontours
  refine ⟨edges, circles, hedges, rfl, fun contour hcontour => ?_⟩
  rcases ContourForest.build_cases _ tolerance with ⟨e, herror, -⟩ | ⟨_, _, polylines, -, hbuilt⟩
  · rw [hforest] at herror
    cases herror
  · obtain ⟨polyline, -, hpolyline⟩ :=
      Fallible.exists_of_mem_mapM hbuilt.polylines_eq (List.mem_map.mpr ⟨contour, hcontour, rfl⟩)
    exact ⟨polyline, hpolyline⟩

/-- A contour of one point has no polygon. -/
theorem asPolyline_point (hchord : 0 ≤ tolerance.arcChordToleranceMm) {contour : CurveContour} {p : Point2D}
    (h : contour.edges = [.line ⟨p, p⟩]) (polyline : Polyline2D) : asPolyline tolerance (.curves contour) ≠ .ok polyline := by
  have hpoints : contour.edges.mapM (ContourEdge.points tolerance.arcChordToleranceMm) = .ok [[p, p]] := by
    rw [h]
    rfl
  have hvertices : contour.vertices tolerance.arcChordToleranceMm = .ok [p] := by
    rw [CurveContour.vertices, hpoints, Fallible.ok_bind]
    have hdrop : dropClosing [p, p] tolerance.arcChordToleranceMm = [p] := by
      unfold dropClosing
      simp only [List.head?_cons, List.getLast?_cons_cons, List.getLast?_singleton]
      rw [if_pos ⟨by simp, by rw [distanceTo_self]; exact hchord⟩]
      rfl
    rw [joinPoints, if_pos rfl, joinPoints, hdrop]
    rfl
  rw [asPolyline, hvertices, Fallible.ok_bind, Polyline2D.checked, dif_neg (by simp)]
  intro h
  cases h

section main

variable {before after : List EntityRecord} {ref : String} {vertices : List PolylineVertex} {analysis : ContourAnalysis}
  {forest : ContourForest} {own : List EdgeRecord}

/-- A contour of just the edges of a polyline is one of the chains. -/
theorem chain_of_hasOwnContour (hunique : ∀ other ∈ before ++ after, other.entityRef ≠ ref)
    (h : HasOwnContour tolerance (before ++ ⟨ref, .polyline vertices true⟩ :: after) ⟨ref, .polyline vertices true⟩) :
    ∃ edges circles own chain, modelEdges (before ++ ⟨ref, .polyline vertices true⟩ :: after) = .ok (edges, circles) ∧
      entityEdges ⟨ref, .polyline vertices true⟩ = .ok (own, false) ∧ Pooled ref own edges ∧
      chain ∈ (traceChains tolerance edges).1 ∧
      (chain.edges.map EdgeRecord.bothWays).Perm (own.map EdgeRecord.bothWays) ∧
      ∃ polyline, asPolyline tolerance (.curves chain.assembled.contour) = .ok polyline := by
  obtain ⟨analysis, forest, own, hanalysis, hown, contour, hcontour, hperm⟩ := h
  obtain ⟨edges, circles, hedges, hcontours, hpolygons⟩ := analyzeDrawing_ok hanalysis
  obtain ⟨hpooled, hcircles⟩ := modelEdges_pooled hedges hown hunique
  have hpolygon := hpolygons contour hcontour
  rw [hcontours] at hcontour
  rcases List.mem_append.mp hcontour with hmem | hmem
  · obtain ⟨record, hrecord, rfl⟩ := List.mem_map.mp hmem
    obtain ⟨r, hr, hsame⟩ := List.mem_map.mp (hperm.mem_iff.mp (List.mem_map_of_mem List.mem_cons_self))
    have hrefs := (Prod.mk.inj (EdgeRecord.shape_of_bothWays hsame)).1
    rw [hpooled.owned r hr] at hrefs
    exact absurd hrefs.symm (hcircles record hrecord)
  · obtain ⟨chain, hchain, rfl⟩ := List.mem_map.mp hmem
    exact ⟨edges, circles, own, chain, hedges, hown, hpooled, hchain, hperm, hpolygon⟩

theorem spares_of_hasOwnContour (hunique : ∀ other ∈ before ++ after, other.entityRef ≠ ref)
    (h : HasOwnContour tolerance (before ++ ⟨ref, .polyline vertices true⟩ :: after) ⟨ref, .polyline vertices true⟩) :
    ∃ edges circles, modelEdges (before ++ ⟨ref, .polyline vertices true⟩ :: after) = .ok (edges, circles) ∧
      Spares tolerance ref edges := by
  obtain ⟨edges, circles, own, chain, hedges, -, hpooled, hchain, hperm, -⟩ := chain_of_hasOwnContour hunique h
  refine ⟨edges, circles, hedges, spares_of_contour hchain ?_ ?_⟩
  · intro r hr
    obtain ⟨r', hr', hsame⟩ := List.mem_map.mp (hperm.mem_iff.mp (List.mem_map_of_mem hr))
    rw [← (Prod.mk.inj (EdgeRecord.shape_of_bothWays hsame)).1]
    exact hpooled.owned r' hr'
  · have hlength := hperm.length_eq
    rw [List.length_map, List.length_map] at hlength
    rw [hpooled.ownCount, hlength]

/-- One vertex makes no contour that has a polygon. -/
theorem two_le_of_hasOwnContour (hchord : 0 ≤ tolerance.arcChordToleranceMm)
    (hunique : ∀ other ∈ before ++ after, other.entityRef ≠ ref)
    (h : HasOwnContour tolerance (before ++ ⟨ref, .polyline vertices true⟩ :: after) ⟨ref, .polyline vertices true⟩) :
    2 ≤ vertices.length := by
  obtain ⟨edges, circles, own, chain, hedges, hown, hpooled, hchain, hperm, polyline, hpolyline⟩ :=
    chain_of_hasOwnContour hunique h
  have hspans := (entityEdges_spans hown).length_eq
  rw [length_segments] at hspans
  have hlength := hperm.length_eq
  rw [List.length_map, List.length_map, ← hspans] at hlength
  have hpos := List.length_pos_of_ne_nil chain.edges_ne
  by_contra hlt
  obtain ⟨v, rfl⟩ := List.length_eq_one_iff.mp (show vertices.length = 1 by omega)
  obtain ⟨found, hfound, heq⟩ := Fallible.bind_eq_ok.mp hown
  obtain ⟨rfl, -⟩ := Prod.mk.inj (Except.ok.inj heq)
  obtain ⟨edge, others, hedge, hnil, rfl⟩ := List.forall₂_cons_left_iff.mp (Fallible.mapM_eq_ok.mp hfound)
  obtain rfl := List.forall₂_nil_left_iff.mp hnil
  -- The one segment goes from the vertex to itself.
  have hline : edge = .line ⟨v.pointMm, v.pointMm⟩ := by
    replace hedge : segmentEdge v v = .ok edge := hedge
    unfold segmentEdge at hedge
    split at hedge
    · exact (Except.ok.inj hedge).symm
    · obtain ⟨c, hc, -⟩ := Fallible.map_eq_ok.mp hedge
      unfold normalizeBulge at hc
      rw [if_pos (.inl (distanceTo_self v.pointMm).le)] at hc
      cases hc
  obtain ⟨record, hrecord⟩ := List.length_eq_one_iff.mp hlength
  rw [hrecord] at hperm
  have hsame : record.bothWays = EdgeRecord.bothWays ⟨edge, ref⟩ := by simpa using hperm
  have hcontour : chain.assembled.contour.edges = [.line ⟨v.pointMm, v.pointMm⟩] := by
    have hrecordEdge : record.edge = .line ⟨v.pointMm, v.pointMm⟩ := by
      rcases EdgeRecord.bothWays_eq_iff.mp hsame with rfl | rfl <;> rw [hline]
      rfl
    change chain.edges.map EdgeRecord.edge = _
    rw [hrecord, List.map_singleton, hrecordEdge]
  exact asPolyline_point hchord hcontour polyline hpolyline

end main

def plate : List PolylineVertex := [⟨⟨0, 0⟩, 0⟩, ⟨⟨10, 0⟩, 0⟩, ⟨⟨10, 10⟩, 0⟩, ⟨⟨0, 10⟩, 0⟩]

theorem plate_apart : plate.Pairwise fun v w =>
    ¬ ToleranceProfile.IsCoincident {} (v.pointMm.distanceTo w.pointMm) := by
  have hfar (p q : Point2D) (h : 1 ≤ (p.x - q.x) ^ 2 + (p.y - q.y) ^ 2) :
      ¬ ToleranceProfile.IsCoincident {} (p.distanceTo q) := by
    rw [ToleranceProfile.IsCoincident, not_le]
    refine lt_of_lt_of_le (by norm_num) (Real.one_le_sqrt.mpr h)
  simp only [plate, List.pairwise_cons, List.mem_cons, List.not_mem_nil, or_false, forall_eq_or_imp, forall_eq]
  refine ⟨⟨?_, ?_, ?_⟩, ⟨?_, ?_⟩, ?_, ?_⟩
  any_goals exact hfar _ _ (by norm_num)
  simp

/-- A line that comes before the plate and ends at its corner. -/
def strayLine : EntityRecord := ⟨"L1", .line ⟨-5, 0⟩ ⟨0, 0⟩⟩

/-- The edges of the plate after its first. -/
def plateRest : List EdgeRecord :=
  [⟨.line ⟨⟨10, 0⟩, ⟨10, 10⟩⟩, "P1"⟩, ⟨.line ⟨⟨10, 10⟩, ⟨0, 10⟩⟩, "P1"⟩, ⟨.line ⟨⟨0, 10⟩, ⟨0, 0⟩⟩, "P1"⟩]

theorem strayLine_edges : modelEdges ([strayLine] ++ ⟨"P1", .polyline plate true⟩ :: []) =
    .ok (⟨.line ⟨⟨-5, 0⟩, ⟨0, 0⟩⟩, "L1"⟩ :: ⟨.line ⟨⟨0, 0⟩, ⟨10, 0⟩⟩, "P1"⟩ :: plateRest, []) := by
  have hline (p q : Point2D) : segmentEdge ⟨p, 0⟩ ⟨q, 0⟩ = .ok (.line ⟨p, q⟩) := if_pos (by norm_num)
  simp only [modelEdges, strayLine, plate, entityEdges, segments, List.cons_append, List.nil_append, List.mapM_cons,
    List.mapM_nil, List.zip_cons_cons, List.zip_nil_left, ↓reduceIte, hline]
  rfl

end CadHarness.Geometry
