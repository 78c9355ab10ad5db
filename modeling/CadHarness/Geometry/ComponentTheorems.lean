import CadHarness.Geometry.ForestTheorems
import CadHarness.Geometry.TracingTheorems
import CadHarness.Lib.Trail

/-!
# Contours are components

Where the ends of the edges lie in clusters of two, the chains that are traced are the components of the graph of the
edges: a chain that is still open is met by an edge that is left, and a closed one by none.
-/

namespace CadHarness.Geometry
open CadHarness.Lib

/-! ## Ends of edges -/

/-- What an edge says but for its direction. -/
noncomputable def EdgeRecord.shape (record : EdgeRecord) : String × Sym2 Point2D :=
  (record.entityRef, s(record.startPoint, record.endPoint))

theorem EdgeRecord.reverse_shape (record : EdgeRecord) : record.reverse.shape = record.shape := by
  have href : record.reverse.entityRef = record.entityRef := by
    rcases record with ⟨_ | c, ref⟩ <;> rfl
  rw [shape, shape, href, reverse_startPoint, reverse_endPoint, Sym2.eq_swap]

theorem EdgeRecord.shape_of_bothWays {record record' : EdgeRecord} (h : record.bothWays = record'.bothWays) :
    record.shape = record'.shape := by
  rcases bothWays_eq_iff.mp h with rfl | rfl
  · rfl
  · exact reverse_shape record'

/-- The ends of all edges. -/
noncomputable def endPoints (edges : List EdgeRecord) : List Point2D :=
  edges.flatMap fun record => [record.startPoint, record.endPoint]

variable {tolerance : ToleranceProfile} {edges edges' all unused : List EdgeRecord} {chain : Chain} {p : Point2D}

theorem endPoints_eq (edges : List EdgeRecord) :
    (endPoints edges : Multiset Point2D) = Trail.incidence EdgeRecord.startPoint EdgeRecord.endPoint edges := by
  induction edges with
  | nil => rfl
  | cons record edges ih =>
      rw [Trail.incidence_cons, ← ih]
      rfl

section factors

variable {α β γ : Type*} {f : α → β} {l l' : List α}

/-- Lists that agree under one function agree under each that says less. -/
theorem perm_map_of_factors {g : α → γ} (hfactors : ∀ a b, f a = f b → g a = g b) (h : (l.map f).Perm (l'.map f)) :
    (l.map g).Perm (l'.map g) := by
  cases l with
  | nil =>
      obtain rfl : l' = [] := by simpa using h.symm
      exact .refl _
  | cons a l =>
      have hcomp : Function.extend f g (fun _ => g a) ∘ f = g :=
        Function.FactorsThrough.extend_comp _ fun a b hab => hfactors a b hab
      have hmap := h.map (Function.extend f g fun _ => g a)
      rwa [List.map_map, List.map_map, hcomp] at hmap

/-- Lists that agree under a function agree where it has a property. -/
theorem perm_map_filter {p : α → Bool} (q : β → Bool) (hp : ∀ a, a ∈ l ∨ a ∈ l' → p a = q (f a))
    (h : (l.map f).Perm (l'.map f)) : ((l.filter p).map f).Perm ((l'.filter p).map f) := by
  have hq := h.filter q
  rw [List.filter_map, List.filter_map] at hq
  rwa [List.filter_congr fun a ha => hp a (.inl ha), List.filter_congr fun a ha => hp a (.inr ha)]

end factors

theorem endPoints_perm (h : (edges.map EdgeRecord.shape).Perm (edges'.map EdgeRecord.shape)) :
    (endPoints edges).Perm (endPoints edges') := by
  rw [← Multiset.coe_eq_coe, endPoints_eq, endPoints_eq]
  refine Trail.incidence_congr ?_
  exact perm_map_of_factors (fun a b hab => (Prod.mk.inj hab).2) h

/-! ## Clusters -/

section clusters

variable {κ : Type} (cluster : Point2D → κ)

noncomputable def EdgeRecord.startCluster (record : EdgeRecord) : κ := cluster record.startPoint

noncomputable def EdgeRecord.endCluster (record : EdgeRecord) : κ := cluster record.endPoint

open Classical in
/-- The ends of the edges lie in clusters, two in each, and no edge has both ends in one. -/
structure Clustered (tolerance : ToleranceProfile) (edges : List EdgeRecord) : Prop where
  close : ∀ p ∈ endPoints edges, ∀ q ∈ endPoints edges, cluster p = cluster q → tolerance.IsCoincident (p.distanceTo q)
  apart : ∀ p ∈ endPoints edges, ∀ q ∈ endPoints edges, cluster p ≠ cluster q → ¬ tolerance.IsCoincident (p.distanceTo q)
  two : ∀ p ∈ endPoints edges, (endPoints edges).countP (fun q => cluster q = cluster p) = 2
  ends : ∀ record ∈ edges, record.startCluster cluster ≠ record.endCluster cluster

/-- The clusters, joined by the edges. -/
noncomputable def endpointGraph (edges : List EdgeRecord) : SimpleGraph κ :=
  Trail.graph (EdgeRecord.startCluster cluster) (EdgeRecord.endCluster cluster) edges

/-- The clusters at the ends of the edges. -/
noncomputable def endClusters (edges : List EdgeRecord) : Multiset κ :=
  Trail.incidence (EdgeRecord.startCluster cluster) (EdgeRecord.endCluster cluster) edges

variable {cluster} {k : κ}

theorem shape_clusters {record record' : EdgeRecord} (h : record.shape = record'.shape) :
    s(record.startCluster cluster, record.endCluster cluster) =
      s(record'.startCluster cluster, record'.endCluster cluster) :=
  congrArg (Sym2.map cluster) (Prod.mk.inj h).2

theorem endClusters_congr (h : (edges.map EdgeRecord.shape).Perm (edges'.map EdgeRecord.shape)) :
    endClusters cluster edges = endClusters cluster edges' :=
  Trail.incidence_congr (perm_map_of_factors (fun _ _ => shape_clusters) h)

theorem endpointGraph_congr (h : (edges.map EdgeRecord.shape).Perm (edges'.map EdgeRecord.shape)) :
    endpointGraph cluster edges = endpointGraph cluster edges' :=
  Trail.graph_congr (perm_map_of_factors (fun _ _ => shape_clusters) h)

theorem endClusters_append (edges edges' : List EdgeRecord) :
    endClusters cluster (edges ++ edges') = endClusters cluster edges + endClusters cluster edges' :=
  Trail.incidence_append

theorem mem_endPoints : p ∈ endPoints edges ↔ ∃ record ∈ edges, EndsAt record p := by
  simp [endPoints, EndsAt]

theorem endClusters_eq (edges : List EdgeRecord) : endClusters cluster edges = (endPoints edges).map cluster := by
  induction edges with
  | nil => rfl
  | cons record edges ih =>
      rw [endClusters, Trail.incidence_cons, ← endClusters, ih]
      rfl

theorem mem_endClusters : k ∈ endClusters cluster edges ↔ ∃ p ∈ endPoints edges, cluster p = k := by
  rw [endClusters_eq, Multiset.mem_coe, List.mem_map]

theorem Clustered.of_shapes (h : Clustered cluster tolerance edges)
    (hshapes : (edges.map EdgeRecord.shape).Perm (edges'.map EdgeRecord.shape)) : Clustered cluster tolerance edges' := by
  have hpoints := endPoints_perm hshapes
  constructor
  · intro p hp q hq
    exact h.close p (hpoints.mem_iff.mpr hp) q (hpoints.mem_iff.mpr hq)
  · intro p hp q hq
    exact h.apart p (hpoints.mem_iff.mpr hp) q (hpoints.mem_iff.mpr hq)
  · intro p hp
    rw [← hpoints.countP_eq]
    exact h.two p (hpoints.mem_iff.mpr hp)
  · intro record hrecord heq
    obtain ⟨record', hrecord', hshape⟩ := List.mem_map.mp (hshapes.mem_iff.mpr (List.mem_map_of_mem hrecord))
    have hclusters := @shape_clusters κ cluster _ _ hshape
    rw [← heq, Sym2.eq_iff, or_self] at hclusters
    exact h.ends record' hrecord' (hclusters.1.trans hclusters.2.symm)

section

open Classical

theorem Clustered.count_eq (h : Clustered cluster tolerance edges) (hk : k ∈ endClusters cluster edges) :
    (endClusters cluster edges).count k = 2 := by
  obtain ⟨p, hp, rfl⟩ := mem_endClusters.mp hk
  rw [endClusters_eq, Multiset.coe_count, List.count, List.countP_map, ← h.two p hp]
  refine List.countP_congr fun q _ => ?_
  simp

theorem Traced.shapes (h : Traced tolerance all chain unused) :
    ((chain.edges ++ unused).map EdgeRecord.shape).Perm (all.map EdgeRecord.shape) :=
  perm_map_of_factors (fun _ _ => EdgeRecord.shape_of_bothWays) h.kept

theorem Traced.endClusters_eq (h : Traced tolerance all chain unused) :
    endClusters cluster all = endClusters cluster chain.edges + endClusters cluster unused := by
  rw [← endClusters_append, endClusters_congr h.shapes]

theorem Traced.mem_endPoints (h : Traced tolerance all chain unused) (hp : p ∈ endPoints (chain.edges ++ unused)) :
    p ∈ endPoints all :=
  (endPoints_perm h.shapes).mem_iff.mp hp

theorem Traced.mem_chain (h : Traced tolerance all chain unused) {record : EdgeRecord} (hrecord : record ∈ chain.edges)
    (hp : EndsAt record p) : p ∈ endPoints all :=
  h.mem_endPoints (Geometry.mem_endPoints.mpr ⟨record, List.mem_append_left _ hrecord, hp⟩)

theorem Traced.mem_unused (h : Traced tolerance all chain unused) (hp : p ∈ endPoints unused) : p ∈ endPoints all := by
  obtain ⟨record, hrecord, hends⟩ := Geometry.mem_endPoints.mp hp
  exact h.mem_endPoints (Geometry.mem_endPoints.mpr ⟨record, List.mem_append_right _ hrecord, hends⟩)

theorem Traced.first_mem (h : Traced tolerance all chain unused) : chain.first.startPoint ∈ endPoints all :=
  h.mem_chain (List.head_mem chain.edges_ne) (.inl rfl)

theorem Traced.last_mem (h : Traced tolerance all chain unused) : chain.last.endPoint ∈ endPoints all :=
  h.mem_chain (List.getLast_mem chain.edges_ne) (.inr rfl)

/-- Where edges meet, they end in one cluster. -/
theorem Clustered.trail (hclustered : Clustered cluster tolerance edges) (hmeets : edges'.IsChain (Meets tolerance))
    (hmem : ∀ record ∈ edges', ∀ p, EndsAt record p → p ∈ endPoints edges) :
    Trail.IsTrail (EdgeRecord.startCluster cluster) (EdgeRecord.endCluster cluster) edges' := by
  refine hmeets.imp_of_mem_imp fun record next hrecord hnext hmeet => ?_
  by_contra hne
  exact hclustered.apart _ (hmem record hrecord _ (.inr rfl)) _ (hmem next hnext _ (.inl rfl)) hne hmeet

theorem Traced.even_count_iff (h : Traced tolerance all chain unused) (hclustered : Clustered cluster tolerance all) :
    Even ((endClusters cluster chain.edges).count k) ↔
      (k = chain.first.startCluster cluster ↔ k = chain.last.endCluster cluster) :=
  Trail.even_count_incidence (hclustered.trail h.meets fun _ hrecord _ => h.mem_chain hrecord) chain.head?_eq
    chain.getLast?_eq

/-- The end of an open chain is met by an edge that is left. -/
theorem Traced.closed_of_unmet (h : Traced tolerance all chain unused) (hclustered : Clustered cluster tolerance all)
    (hunmet : Unmet tolerance chain.last.endPoint unused) : tolerance.IsCoincident chain.gap := by
  have hlast : chain.last.endCluster cluster ∈ endClusters cluster all := mem_endClusters.mpr ⟨_, h.last_mem, rfl⟩
  have hleft : (endClusters cluster unused).count (chain.last.endCluster cluster) = 0 := by
    rw [Multiset.count_eq_zero]
    intro hmem
    obtain ⟨q, hq, heq⟩ := mem_endClusters.mp hmem
    obtain ⟨record, hrecord, hends⟩ := Geometry.mem_endPoints.mp hq
    exact hunmet record hrecord q hends (hclustered.close _ h.last_mem q (h.mem_unused hq) heq.symm)
  have htwo := hclustered.count_eq hlast
  rw [h.endClusters_eq, Multiset.count_add, hleft, add_zero] at htwo
  have heven : Even ((endClusters cluster chain.edges).count (chain.last.endCluster cluster)) := htwo ▸ even_two
  have hstart := ((h.even_count_iff hclustered).mp heven).mpr rfl
  exact hclustered.close _ h.last_mem _ h.first_mem hstart

/-- A closed chain takes all edges that end in its clusters. -/
theorem Traced.disjoint (h : Traced tolerance all chain unused) (hclustered : Clustered cluster tolerance all)
    (hclosed : tolerance.IsCoincident chain.gap) :
    Disjoint (endClusters cluster chain.edges) (endClusters cluster unused) := by
  have hends : chain.last.endCluster cluster = chain.first.startCluster cluster := by
    by_contra hne
    exact hclustered.apart _ h.last_mem _ h.first_mem hne hclosed
  rw [Multiset.disjoint_left]
  intro k hchain hunused
  have htwo := hclustered.count_eq (h.endClusters_eq ▸ Multiset.mem_add.mpr (.inl hchain))
  rw [h.endClusters_eq, Multiset.count_add] at htwo
  have hpos := Multiset.count_pos.mpr hchain
  have hpos' := Multiset.count_pos.mpr hunused
  have heven : Even ((endClusters cluster chain.edges).count k) := (h.even_count_iff hclustered).mpr (by rw [hends])
  obtain ⟨n, hn⟩ := heven
  omega

/-- What a closed chain leaves is clustered as before. -/
theorem Traced.clustered_unused (h : Traced tolerance all chain unused) (hclustered : Clustered cluster tolerance all)
    (hclosed : tolerance.IsCoincident chain.gap) : Clustered cluster tolerance unused where
  close p hp q hq := hclustered.close p (h.mem_unused hp) q (h.mem_unused hq)
  apart p hp q hq := hclustered.apart p (h.mem_unused hp) q (h.mem_unused hq)
  two := by
    intro p hp
    have hmem : cluster p ∈ endClusters cluster unused := mem_endClusters.mpr ⟨p, hp, rfl⟩
    have hnone := Multiset.disjoint_right.mp (h.disjoint hclustered hclosed) hmem
    have htwo := hclustered.count_eq (h.endClusters_eq ▸ Multiset.mem_add.mpr (.inr hmem))
    rw [h.endClusters_eq, Multiset.count_add, Multiset.count_eq_zero.mpr hnone, zero_add, Geometry.endClusters_eq,
      Multiset.coe_count, List.count, List.countP_map] at htwo
    rw [← htwo]
    refine List.countP_congr fun q _ => ?_
    simp
  ends := by
    intro record hrecord
    exact (hclustered.of_shapes h.shapes.symm).ends record (List.mem_append_right _ hrecord)

end

/-! ## All chains -/

theorem traceChain_closed {record : EdgeRecord} (hclustered : Clustered cluster tolerance (record :: unused)) :
    tolerance.IsCoincident (traceChain tolerance record unused).1.gap := by
  obtain ⟨htraced, hclosed | hunmet⟩ := @traceChain_traced tolerance record unused
  · exact hclosed
  · exact htraced.closed_of_unmet hclustered hunmet.2

theorem Partition.shapes {closed opened : List Chain} (h : Partition tolerance edges closed opened) :
    (((closed ++ opened).flatMap Chain.edges).map EdgeRecord.shape).Perm (edges.map EdgeRecord.shape) :=
  perm_map_of_factors (fun _ _ => EdgeRecord.shape_of_bothWays) h.kept

/-- No chain is open, and no two of them share a cluster. -/
theorem traceChains_closed (hclustered : Clustered cluster tolerance edges) :
    (traceChains tolerance edges).2 = [] ∧ (traceChains tolerance edges).1.Pairwise fun chain chain' =>
      Disjoint (endClusters cluster chain.edges) (endClusters cluster chain'.edges) := by
  fun_induction traceChains tolerance edges with
  | case1 => exact ⟨rfl, .nil⟩
  | case2 record unused traced closed opened hrest hclosed ih =>
      have htraced := (@traceChain_traced tolerance record unused).1
      rw [hrest] at ih
      obtain ⟨hopened, hapart⟩ := ih (htraced.clustered_unused hclustered hclosed)
      refine ⟨hopened, List.pairwise_cons.mpr ⟨fun chain hchain => ?_, hapart⟩⟩
      have hpartition := @traceChains_partition tolerance traced.2
      rw [hrest] at hpartition
      refine Disjoint.mono_right ?_ (htraced.disjoint hclustered hclosed)
      rw [← endClusters_congr hpartition.shapes]
      obtain ⟨before, after, hsplit⟩ := List.append_of_mem (List.mem_append_left opened hchain)
      dsimp only at hsplit ⊢
      rw [hsplit, List.flatMap_append, List.flatMap_cons, endClusters_append, endClusters_append]
      exact (Multiset.le_add_right _ _).trans (Multiset.le_add_left _ _)
  | case3 record unused traced closed opened hrest hopen ih => exact absurd (traceChain_closed hclustered) hopen

theorem Partition.trail {closed opened : List Chain} (h : Partition tolerance edges closed opened)
    (hclustered : Clustered cluster tolerance edges) (hchain : chain ∈ closed ++ opened) :
    Trail.IsTrail (EdgeRecord.startCluster cluster) (EdgeRecord.endCluster cluster) chain.edges := by
  refine hclustered.trail (h.meets chain hchain) fun record hrecord p hp => ?_
  have hmem : p ∈ endPoints ((closed ++ opened).flatMap Chain.edges) :=
    mem_endPoints.mpr ⟨record, List.mem_flatMap_of_mem hchain hrecord, hp⟩
  exact (endPoints_perm h.shapes).mem_iff.mp hmem

/-- A closed chain has more than one edge. -/
theorem Partition.two_le {closed opened : List Chain} (h : Partition tolerance edges closed opened)
    (hclustered : Clustered cluster tolerance edges) (hchain : chain ∈ closed) : 2 ≤ chain.edges.length := by
  by_contra hlt
  have hpos := List.length_pos_of_ne_nil chain.edges_ne
  obtain ⟨record, hrecord⟩ := List.length_eq_one_iff.mp (show chain.edges.length = 1 by omega)
  have hends : chain.first = record ∧ chain.last = record := by
    constructor
    · simp [Chain.first, hrecord]
    · simp [Chain.last, hrecord]
  have hall := hclustered.of_shapes h.shapes.symm
  have hmem : record ∈ (closed ++ opened).flatMap Chain.edges :=
    List.mem_flatMap_of_mem (List.mem_append_left _ hchain) (hrecord ▸ List.mem_singleton_self record)
  have hclosed := h.closes chain hchain
  rw [Chain.gap, hends.1, hends.2] at hclosed
  exact hall.apart _ (mem_endPoints.mpr ⟨record, hmem, .inr rfl⟩) _ (mem_endPoints.mpr ⟨record, hmem, .inl rfl⟩)
    (hall.ends record hmem).symm hclosed

/-! ## Components -/

variable (cluster)

noncomputable def EdgeRecord.component (edges : List EdgeRecord) (record : EdgeRecord) :
    (endpointGraph cluster edges).ConnectedComponent :=
  (endpointGraph cluster edges).connectedComponentMk (record.startCluster cluster)

open Classical in
/-- The edges of a component. -/
noncomputable def componentEdges (edges : List EdgeRecord) (c : (endpointGraph cluster edges).ConnectedComponent) :
    List EdgeRecord :=
  edges.filter fun record => record.component cluster edges = c

/-- The contours are the components, each of them one. -/
def AreComponents (edges : List EdgeRecord) (contours : List (List EdgeRecord)) : Prop :=
  ∃ components : List (endpointGraph cluster edges).ConnectedComponent, components.Nodup ∧
    (∀ record ∈ edges, record.component cluster edges ∈ components) ∧
    List.Forall₂ (fun contour c =>
      (contour.map EdgeRecord.bothWays).Perm ((componentEdges cluster edges c).map EdgeRecord.bothWays)) contours components

variable {cluster}

/-- An edge is in the component of each of its ends. -/
theorem component_of_ends {record record' : EdgeRecord} (hrecord : record ∈ edges)
    (h : s(record.startCluster cluster, record.endCluster cluster) =
      s(record'.startCluster cluster, record'.endCluster cluster)) :
    record'.component cluster edges = record.component cluster edges := by
  refine SimpleGraph.ConnectedComponent.sound ?_
  rcases Sym2.eq_iff.mp h with ⟨hstart, -⟩ | ⟨-, hend⟩
  · rw [hstart]
  · rw [← hend]
    exact (Trail.reachable_of_mem hrecord).symm

theorem traceChains_components (hclustered : Clustered cluster tolerance edges) :
    AreComponents cluster edges ((traceChains tolerance edges).1.map Chain.edges) := by
  classical
  obtain ⟨hopened, hapart⟩ := traceChains_closed hclustered
  have hpartition := @traceChains_partition tolerance edges
  have hkept := hpartition.kept
  have hshapes := hpartition.shapes
  rw [hopened, List.append_nil] at hkept hshapes
  have hgraph : endpointGraph cluster edges = Trail.graph (EdgeRecord.startCluster cluster)
      (EdgeRecord.endCluster cluster) ((traceChains tolerance edges).1.map Chain.edges).flatten := by
    rw [← List.flatMap_def]
    exact endpointGraph_congr hshapes.symm
  obtain ⟨components, hnodup, hall, hcomponents⟩ := Trail.components_of_apart hgraph
    (fun t ht => by
      obtain ⟨chain, -, rfl⟩ := List.mem_map.mp ht
      exact chain.edges_ne)
    (fun t ht => by
      obtain ⟨chain, hchain, rfl⟩ := List.mem_map.mp ht
      exact hpartition.trail hclustered (List.mem_append_left _ hchain))
    (List.pairwise_map.mpr hapart)
  rw [← List.flatMap_def] at hall
  simp only [← List.flatMap_def] at hcomponents
  -- The direction in which an edge is traced does not change its component.
  have hturn {record record' : EdgeRecord} (hrecord : record ∈ edges) (h : record.bothWays = record'.bothWays) :
      record'.component cluster edges = record.component cluster edges :=
    component_of_ends hrecord (shape_clusters (EdgeRecord.shape_of_bothWays h))
  refine ⟨components, hnodup, ?_, ?_⟩
  · intro record hrecord
    obtain ⟨record', hrecord', hsame⟩ := List.mem_map.mp (hkept.mem_iff.mpr (List.mem_map_of_mem hrecord))
    rw [← hturn hrecord hsame.symm]
    exact hall record' hrecord'
  · refine hcomponents.imp fun contour c hcontour => ?_
    rw [← hcontour]
    refine perm_map_filter (fun S => ∃ record ∈ edges, record.bothWays = S ∧ record.component cluster edges = c) ?_ hkept
    intro record hrecord
    rw [decide_eq_decide]
    constructor
    · intro hc
      have hmem : record.bothWays ∈ edges.map EdgeRecord.bothWays := by
        rcases hrecord with htraced | hedge
        · exact hkept.mem_iff.mp (List.mem_map_of_mem htraced)
        · exact List.mem_map_of_mem hedge
      obtain ⟨record', hrecord', hsame⟩ := List.mem_map.mp hmem
      exact ⟨record', hrecord', hsame, (hturn hrecord' hsame).symm.trans hc⟩
    · rintro ⟨record', hrecord', hsame, hc⟩
      exact (hturn hrecord' hsame).trans hc

end clusters

/-! ## The polygon of a contour -/

section polygon

variable {chordToleranceMm : ℝ}

theorem linearizeCurve_length {c : CurveParams} {count : Nat} (h : chordSegmentCount c chordToleranceMm = .ok count) :
    ∃ points, linearizeCurve c chordToleranceMm = .ok points ∧ points.length = count + 1 := by
  unfold linearizeCurve
  rw [h]
  refine ⟨_, rfl, ?_⟩
  simp [List.length_flatMap]

theorem linearizeCurve_isOk (hchord : 0 < chordToleranceMm) (c : CurveParams) :
    ∃ points, linearizeCurve c chordToleranceMm = .ok points ∧ 2 ≤ points.length := by
  obtain ⟨points, hpoints, hlength⟩ := linearizeCurve_length (if_neg hchord.not_ge)
  refine ⟨points, hpoints, ?_⟩
  rw [hlength]
  exact Nat.succ_le_succ (le_max_left _ _)

theorem ContourEdge.points_isOk (hchord : 0 < chordToleranceMm) (edge : ContourEdge) :
    ∃ points, edge.points chordToleranceMm = .ok points ∧ 2 ≤ points.length := by
  cases edge with
  | line edge => exact ⟨_, rfl, le_refl 2⟩
  | curve c => exact linearizeCurve_isOk hchord c

/-- A full turn is cut at least once. -/
theorem linearizeCurve_circle (hchord : 0 < chordToleranceMm) {center : Point2D} {radius : ℝ} {c : CurveParams}
    (h : normalizeCircle center radius = .ok c) :
    ∃ points, linearizeCurve c chordToleranceMm = .ok points ∧ 3 ≤ points.length := by
  have hfields := CurveFields.checked_ok h
  have hradius : c.radiusMm = some radius := by rw [hfields]
  have hsweep : c.sweepDeg = 360 := by rw [hfields]
  have hpos := c.radius_pos hradius
  have hturn : |radians c.sweepDeg| = 2 * Real.pi := by
    rw [hsweep, radians, abs_of_pos (by positivity)]
    ring
  obtain ⟨points, hpoints, hlength⟩ := linearizeCurve_length (if_neg hchord.not_ge)
  refine ⟨points, hpoints, ?_⟩
  rw [hlength, hturn]
  refine Nat.succ_le_succ (le_max_of_le_right ?_)
  rw [Nat.succ_le_iff, Nat.lt_ceil, Nat.cast_one]
  -- No step is longer than half a turn.
  have hlarge : c.maximumRadiusMm = radius := by rw [CurveParams.maximumRadiusMm, hradius, Option.getD_some]
  rw [hlarge]
  split
  · rw [lt_div_iff₀ Real.pi_pos]
    linarith [Real.pi_pos]
  · next hsmall =>
    have hratio : 0 < chordToleranceMm / radius := div_pos hchord hpos
    have hone : chordToleranceMm / radius < 1 := (div_lt_one hpos).mpr (not_le.mp hsmall)
    rw [min_eq_right (by linarith), max_eq_right (by linarith)]
    have hstep : 0 < Real.arccos (1 - chordToleranceMm / radius) := Real.arccos_pos.mpr (by linarith)
    have hhalf : Real.arccos (1 - chordToleranceMm / radius) ≤ Real.pi / 2 :=
      Real.arccos_le_pi_div_two.mpr (by linarith)
    rw [lt_div_iff₀ (by positivity)]
    linarith [Real.pi_pos]

theorem joinPoints_length {points : List Point2D} {rest : List (List Point2D)} (hpoints : points ≠ [])
    (hrest : ∀ edgePoints ∈ rest, 2 ≤ edgePoints.length) :
    points.length + rest.length ≤ (joinPoints points rest).length := by
  induction rest generalizing points with
  | nil => exact le_refl _
  | cons edgePoints rest ih =>
      obtain ⟨hedge, hrest⟩ := List.forall_mem_cons.mp hrest
      rw [joinPoints, if_neg hpoints]
      refine le_trans ?_ (ih (List.append_ne_nil_of_left_ne_nil hpoints _) hrest)
      rw [List.length_append, List.length_tail, List.length_cons]
      omega

theorem dropClosing_length (points : List Point2D) : points.length ≤ (dropClosing points chordToleranceMm).length + 1 := by
  unfold dropClosing
  split
  · split
    · rw [List.length_dropLast]
      omega
    · exact Nat.le_succ _
  · exact Nat.le_succ _

theorem CurveContour.vertices_isOk (hchord : 0 < chordToleranceMm) {contour : CurveContour}
    (htwo : 2 ≤ contour.edges.length) : ∃ vertices, contour.vertices chordToleranceMm = .ok vertices ∧ 2 ≤ vertices.length := by
  choose points hpoints hlength using ContourEdge.points_isOk hchord
  have hmap : contour.edges.mapM (ContourEdge.points chordToleranceMm) = .ok (contour.edges.map points) :=
    Fallible.mapM_ok fun edge _ => hpoints edge
  rw [CurveContour.vertices, hmap]
  refine ⟨_, rfl, ?_⟩
  have hjoined : 3 ≤ (joinPoints [] (contour.edges.map points)).length := by
    cases hedges : contour.edges with
    | nil => exact absurd hedges contour.edges_ne
    | cons first rest =>
        rw [hedges, List.length_cons] at htwo
        have hfirst := hlength first
        rw [List.map_cons, joinPoints, if_pos rfl]
        refine le_trans ?_ (joinPoints_length (List.ne_nil_of_length_pos (by omega)) ?_)
        · rw [List.length_map]
          omega
        · intro edgePoints hmem
          obtain ⟨edge, -, rfl⟩ := List.mem_map.mp hmem
          exact hlength edge
  have := @dropClosing_length chordToleranceMm (joinPoints [] (contour.edges.map points))
  omega

theorem circle_vertices_isOk (hchord : 0 < chordToleranceMm) {record : EdgeRecord} (h : record.IsCircle) :
    ∃ vertices, (circleContour record).contour.vertices chordToleranceMm = .ok vertices ∧ 2 ≤ vertices.length := by
  obtain ⟨center, radius, c, hedge, hc⟩ := h
  obtain ⟨points, hpoints, hlength⟩ := linearizeCurve_circle hchord hc
  have hmap : (circleContour record).contour.edges.mapM (ContourEdge.points chordToleranceMm) = .ok [points] := by
    have hrecord : record.edge.points chordToleranceMm = .ok points := by rw [hedge]; exact hpoints
    exact Fallible.mapM_ok (g := fun _ => points) (List.forall_mem_singleton.mpr hrecord)
  rw [CurveContour.vertices, hmap]
  refine ⟨_, rfl, ?_⟩
  have := @dropClosing_length chordToleranceMm points
  rw [joinPoints, if_pos rfl, joinPoints]
  omega

/-- Contours that have polygons have a forest. -/
theorem ContourForest.build_isOk {contours : List CurveContour}
    (h : ∀ contour ∈ contours, ∃ vertices, contour.vertices tolerance.arcChordToleranceMm = .ok vertices ∧ 2 ≤ vertices.length) :
    ∃ forest, ContourForest.build (contours.map .curves) tolerance = .ok forest := by
  rcases build_cases (contours.map .curves) tolerance with ⟨e, -, -, ⟨polyline, hmem, -⟩ | ⟨contour, hmem, herror⟩⟩ |
    ⟨forest, -, -, hforest, -⟩
  · obtain ⟨contour, -, heq⟩ := List.mem_map.mp hmem
    cases heq
  · obtain ⟨contour, hcontour, rfl⟩ := List.mem_map.mp hmem
    obtain ⟨vertices, hvertices, htwo⟩ := h contour hcontour
    rw [asPolyline, hvertices, Fallible.ok_bind, Polyline2D.checked, dif_pos htwo] at herror
    cases herror
  · exact ⟨forest, hforest⟩

end polygon

/-! ## Main result -/

/-- The boundaries that are not circles, each as the entities it is made of. -/
def ContourAnalysis.boundaries (analysis : ContourAnalysis) : Set (Set String) :=
  {refs | ∃ contour ∈ analysis.contours, contour.isCircle = false ∧ refs = {ref | ref ∈ contour.entityRefs}}

section main

variable {κ : Type} (cluster : Point2D → κ)

/-- The components, each as the entities it is made of. -/
def componentRefs (edges : List EdgeRecord) : Set (Set String) :=
  {refs | ∃ record ∈ edges, refs = {ref | ∃ record' ∈ edges,
    record'.component cluster edges = record.component cluster edges ∧ record'.entityRef = ref}}

variable {cluster} {entities : List EntityRecord} {circles : List EdgeRecord}

theorem component_of_shape {record record' : EdgeRecord} (hrecord : record ∈ edges) (h : record.shape = record'.shape) :
    record'.component cluster edges = record.component cluster edges :=
  component_of_ends hrecord (shape_clusters h)

theorem componentRefs_subset (h : (edges'.map EdgeRecord.shape).Perm (edges.map EdgeRecord.shape)) :
    componentRefs cluster edges' ⊆ componentRefs cluster edges := by
  have hgraph := @endpointGraph_congr _ _ κ cluster h
  have hiff (record record' : EdgeRecord) : record'.component cluster edges' = record.component cluster edges' ↔
      record'.component cluster edges = record.component cluster edges := by
    simp only [EdgeRecord.component, SimpleGraph.ConnectedComponent.eq, hgraph]
  rintro refs ⟨record, hrecord, rfl⟩
  obtain ⟨edge, hedge, hshape⟩ := List.mem_map.mp (h.mem_iff.mp (List.mem_map_of_mem hrecord))
  refine ⟨edge, hedge, ?_⟩
  ext ref
  constructor
  · rintro ⟨record', hrecord', hcomponent, rfl⟩
    obtain ⟨edge', hedge', hshape'⟩ := List.mem_map.mp (h.mem_iff.mp (List.mem_map_of_mem hrecord'))
    rw [hiff, component_of_shape hedge hshape, component_of_shape hedge' hshape'] at hcomponent
    exact ⟨edge', hedge', hcomponent, (Prod.mk.inj hshape').1⟩
  · rintro ⟨edge', hedge', hcomponent, rfl⟩
    obtain ⟨record', hrecord', hshape'⟩ := List.mem_map.mp (h.mem_iff.mpr (List.mem_map_of_mem hedge'))
    refine ⟨record', hrecord', ?_, (Prod.mk.inj hshape').1⟩
    rw [hiff, component_of_shape hedge hshape, component_of_shape hedge' hshape'.symm, hcomponent]

theorem componentRefs_congr (h : (edges'.map EdgeRecord.shape).Perm (edges.map EdgeRecord.shape)) :
    componentRefs cluster edges' = componentRefs cluster edges :=
  (componentRefs_subset h).antisymm (componentRefs_subset h.symm)

/-- The analysis of a drawing whose edges are clustered. -/
theorem analyzeDrawing_clustered (hedges : modelEdges entities = .ok (edges, circles))
    (hclustered : Clustered cluster tolerance edges) (hchord : 0 < tolerance.arcChordToleranceMm) :
    ∃ forest, analyzeDrawing tolerance entities = .ok (⟨circles.map circleContour ++
      (traceChains tolerance edges).1.map Chain.assembled, []⟩, forest) := by
  have hopened := (traceChains_closed hclustered).1
  have hanalysis : analyzeContours tolerance entities = .ok ⟨circles.map circleContour ++
      (traceChains tolerance edges).1.map Chain.assembled, []⟩ := by
    rw [analyzeContours, hedges, Fallible.ok_bind]
    dsimp only
    rw [hopened]
    rfl
  have hpartition := @traceChains_partition tolerance edges
  obtain ⟨forest, hforest⟩ := @ContourForest.build_isOk tolerance
    ((circles.map circleContour ++ (traceChains tolerance edges).1.map Chain.assembled).map AssembledContour.contour) (by
      intro contour hcontour
      obtain ⟨item, hitem, rfl⟩ := List.mem_map.mp hcontour
      rcases List.mem_append.mp hitem with hcircle | hclosed
      · obtain ⟨record, hrecord, rfl⟩ := List.mem_map.mp hcircle
        exact circle_vertices_isOk hchord (modelEdges_circle hedges record hrecord)
      · obtain ⟨chain, hchain, rfl⟩ := List.mem_map.mp hclosed
        refine CurveContour.vertices_isOk hchord ?_
        rw [Chain.assembled, List.length_map]
        exact hpartition.two_le hclustered hchain)
  refine ⟨forest, ?_⟩
  rw [analyzeDrawing, hanalysis, Fallible.ok_bind]
  rw [List.map_map] at hforest
  rw [show (fun item : AssembledContour => Contour.curves item.contour) = Contour.curves ∘ AssembledContour.contour from rfl,
    hforest]
  rfl

theorem boundaries_eq (hclustered : Clustered cluster tolerance edges) :
    ContourAnalysis.boundaries ⟨circles.map circleContour ++ (traceChains tolerance edges).1.map Chain.assembled, []⟩ =
      componentRefs cluster edges := by
  classical
  obtain ⟨components, -, hall, hcomponents⟩ := traceChains_components hclustered
  rw [List.forall₂_map_left_iff] at hcomponents
  have hrefs {chain : Chain} {c : (endpointGraph cluster edges).ConnectedComponent}
      (h : (chain.edges.map EdgeRecord.bothWays).Perm ((componentEdges cluster edges c).map EdgeRecord.bothWays)) :
      {ref | ref ∈ chain.assembled.entityRefs} =
        {ref | ∃ record ∈ edges, record.component cluster edges = c ∧ record.entityRef = ref} := by
    have hperm := perm_map_of_factors
      (fun a b hab => (Prod.mk.inj (EdgeRecord.shape_of_bothWays hab)).1) h (g := EdgeRecord.entityRef)
    ext ref
    simp only [Chain.assembled, uniqueRefs, List.mem_eraseDups, hperm.mem_iff, componentEdges, List.mem_map,
      List.mem_filter, decide_eq_true_eq, Set.mem_ofPred_eq, and_assoc]
  ext refs
  constructor
  · rintro ⟨contour, hcontour, hcircle, rfl⟩
    rcases List.mem_append.mp hcontour with hmem | hmem
    · obtain ⟨record, -, rfl⟩ := List.mem_map.mp hmem
      cases hcircle
    · obtain ⟨chain, hchain, rfl⟩ := List.mem_map.mp hmem
      obtain ⟨c, -, h⟩ := Fallible.mem_of_forall₂ hcomponents.flip hchain
      have hfirst : chain.first.bothWays ∈ (componentEdges cluster edges c).map EdgeRecord.bothWays :=
        h.mem_iff.mp (List.mem_map_of_mem (List.head_mem chain.edges_ne))
      obtain ⟨record, hrecord, -⟩ := List.mem_map.mp hfirst
      obtain ⟨hrecord, hcomponent⟩ := List.mem_filter.mp hrecord
      refine ⟨record, hrecord, ?_⟩
      rw [hrefs h, ← of_decide_eq_true hcomponent]
  · rintro ⟨record, hrecord, rfl⟩
    obtain ⟨chain, hchain, h⟩ := Fallible.mem_of_forall₂ hcomponents (hall record hrecord)
    exact ⟨chain.assembled, List.mem_append_right _ (List.mem_map_of_mem hchain), rfl, (hrefs h).symm⟩

theorem filter_contours (chains : List Chain) :
    ((circles.map circleContour ++ chains.map Chain.assembled).filter fun contour => !contour.isCircle).map
      AssembledContour.edges = chains.map Chain.edges := by
  have hcircles : (circles.map circleContour).filter (fun contour => !contour.isCircle) = [] := by
    rw [List.filter_map, List.filter_eq_nil_iff.mpr (by simp [circleContour]), List.map_nil]
  have hchains : (chains.map Chain.assembled).filter (fun contour => !contour.isCircle) = chains.map Chain.assembled := by
    rw [List.filter_eq_self]
    intro contour hcontour
    obtain ⟨chain, -, rfl⟩ := List.mem_map.mp hcontour
    rfl
  rw [List.filter_append, hcircles, hchains, List.nil_append, List.map_map]
  rfl

end main

/-- A triangle, with its second line drawn the other way. -/
def triangle : List EntityRecord :=
  [⟨"L1", .line ⟨0, 0⟩ ⟨4, 0⟩⟩, ⟨"L2", .line ⟨0, 3⟩ ⟨4, 0⟩⟩, ⟨"L3", .line ⟨0, 3⟩ ⟨0, 0⟩⟩]

def triangleEdges : List EdgeRecord :=
  [⟨.line ⟨⟨0, 0⟩, ⟨4, 0⟩⟩, "L1"⟩, ⟨.line ⟨⟨0, 3⟩, ⟨4, 0⟩⟩, "L2"⟩, ⟨.line ⟨⟨0, 3⟩, ⟨0, 0⟩⟩, "L3"⟩]

theorem triangle_edges : modelEdges triangle = .ok (triangleEdges, []) := rfl

theorem triangle_clustered : Clustered id {} triangleEdges where
  close := by
    intro p _ q _ heq
    obtain rfl : p = q := heq
    rw [ToleranceProfile.IsCoincident, distanceTo_self]
    norm_num
  apart := by
    intro p hp q hq hne
    simp only [endPoints, triangleEdges, EdgeRecord.startPoint, EdgeRecord.endPoint, List.flatMap_cons, List.flatMap_nil,
      List.cons_append, List.nil_append, List.append_nil, List.mem_cons, List.not_mem_nil, or_false] at hp hq
    rw [ToleranceProfile.IsCoincident, not_le, Point2D.distanceTo, Real.lt_sqrt (by norm_num)]
    rcases hp with rfl | rfl | rfl | rfl | rfl | rfl <;> rcases hq with rfl | rfl | rfl | rfl | rfl | rfl <;>
      first | exact absurd rfl hne | norm_num
  two := by
    intro p hp
    simp only [endPoints, triangleEdges, EdgeRecord.startPoint, EdgeRecord.endPoint, List.flatMap_cons, List.flatMap_nil,
      List.cons_append, List.nil_append, List.append_nil, List.mem_cons, List.not_mem_nil, or_false] at hp ⊢
    rcases hp with rfl | rfl | rfl | rfl | rfl | rfl <;> norm_num [List.countP_cons]
  ends := by
    simp [triangleEdges, EdgeRecord.startCluster, EdgeRecord.endCluster, EdgeRecord.startPoint, EdgeRecord.endPoint]

end CadHarness.Geometry