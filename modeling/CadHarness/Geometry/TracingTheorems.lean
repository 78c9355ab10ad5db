import CadHarness.Geometry.Theorems
import CadHarness.Geometry.Tracing
import CadHarness.Lib.Fallible
import Mathlib.Data.List.Chain
import Mathlib.Data.List.Perm.Basic
import Mathlib.Data.Set.Insert

/-!
# What is traced

Every edge of a drawing is in one contour or in one open chain, and an open chain is not extended by another.
-/

namespace CadHarness.Geometry
open CadHarness.Lib

variable {tolerance : ToleranceProfile} {chain : Chain} {unused all : List EdgeRecord} {p : Point2D}

/-! ## Turning an edge -/

theorem distanceTo_comm (p q : Point2D) : p.distanceTo q = q.distanceTo p := by
  unfold Point2D.distanceTo
  congr 1
  ring

namespace EdgeRecord

variable (record : EdgeRecord)

@[simp] theorem reverse_startPoint : record.reverse.startPoint = record.endPoint := by
  rcases record with ⟨_ | c, ref⟩
  · rfl
  · simp [reverse, startPoint, endPoint, CurveParams.startPoint, CurveParams.endPoint, CurveParams.pointAt, reverseCurve,
      CurveParams.endAngleDeg]

@[simp] theorem reverse_endPoint : record.reverse.endPoint = record.startPoint := by
  rcases record with ⟨_ | c, ref⟩
  · rfl
  · simp [reverse, startPoint, endPoint, CurveParams.startPoint, CurveParams.endPoint, CurveParams.pointAt, reverseCurve,
      CurveParams.endAngleDeg]

@[simp] theorem reverse_reverse : record.reverse.reverse = record := by
  rcases record with ⟨_ | c, ref⟩
  · rfl
  · rcases c with ⟨⟨kind, center, start, sweep, radius, major, minor, rotation⟩, hne, hle, hshape⟩
    simp [reverse, reverseCurve, CurveParams.endAngleDeg]

/-- An edge, whichever way it is taken. -/
def bothWays : Set EdgeRecord := {record, record.reverse}

@[simp] theorem reverse_bothWays : record.reverse.bothWays = record.bothWays := by
  simp [bothWays, Set.pair_comm]

theorem bothWays_eq_iff {record record' : EdgeRecord} :
    record.bothWays = record'.bothWays ↔ record = record' ∨ record = record'.reverse := by
  constructor
  · intro h
    have hmem : record ∈ record'.bothWays := by
      rw [← h]
      exact Set.mem_insert record _
    simpa [bothWays] using hmem
  · rintro (rfl | rfl) <;> simp

end EdgeRecord

/-- A closed polyline has as many edges as vertices. -/
theorem length_segments {vertices : List PolylineVertex} : (segments vertices true).length = vertices.length := by
  cases vertices <;> simp [segments]

/-! ## Meeting ends -/

def EndsAt (record : EdgeRecord) (p : Point2D) : Prop := p = record.startPoint ∨ p = record.endPoint

/-- The end of an edge meets the start of the next. -/
def Meets (tolerance : ToleranceProfile) (record next : EdgeRecord) : Prop :=
  tolerance.IsCoincident (record.endPoint.distanceTo next.startPoint)

/-- No edge has an end at the point. -/
def Unmet (tolerance : ToleranceProfile) (p : Point2D) (unused : List EdgeRecord) : Prop :=
  ∀ record ∈ unused, ∀ q, EndsAt record q → ¬ tolerance.IsCoincident (p.distanceTo q)

/-- The edge that is found is taken out, turned so that it starts where it was looked for. -/
theorem findMatch_spec {index : Nat} {record : EdgeRecord}
    (h : findMatch tolerance.coincidenceMm p unused = some (index, record)) :
    tolerance.IsCoincident (p.distanceTo record.startPoint) ∧
      (unused.map EdgeRecord.bothWays).Perm ((record :: unused.eraseIdx index).map EdgeRecord.bothWays) := by
  induction unused generalizing index with
  | nil => simp [findMatch] at h
  | cons candidate rest ih =>
      unfold findMatch at h
      split at h
      · rename_i hstart
        obtain ⟨rfl, rfl⟩ := Prod.mk.inj (Option.some.inj h)
        exact ⟨hstart, .refl _⟩
      · split at h
        · rename_i hend
          obtain ⟨rfl, rfl⟩ := Prod.mk.inj (Option.some.inj h)
          exact ⟨by simpa [ToleranceProfile.IsCoincident] using hend, by simp⟩
        · obtain ⟨⟨i, r⟩, hmatch, heq⟩ := Option.map_eq_some_iff.mp h
          obtain ⟨rfl, rfl⟩ := Prod.mk.inj heq
          obtain ⟨hmeets, hperm⟩ := ih hmatch
          refine ⟨hmeets, ?_⟩
          rw [List.eraseIdx_cons_succ]
          exact (hperm.cons candidate.bothWays).trans (.swap _ _ _)

theorem findMatch_eq_none (h : findMatch tolerance.coincidenceMm p unused = none) : Unmet tolerance p unused := by
  induction unused with
  | nil => exact fun record hrecord => absurd hrecord List.not_mem_nil
  | cons candidate rest ih =>
      unfold findMatch at h
      split at h
      · simp at h
      · split at h
        · simp at h
        · rename_i hstart hend
          intro record hrecord q hq
          rcases List.mem_cons.mp hrecord with rfl | hrest
          · rcases hq with rfl | rfl
            · exact hstart
            · exact hend
          · exact ih (Option.map_eq_none_iff.mp h) record hrest q hq

/-! ## A chain -/

namespace Chain

@[simp] theorem single_edges (record : EdgeRecord) : (single record).edges = [record] := rfl

@[simp] theorem append_edges (record : EdgeRecord) : (chain.append record).edges = chain.edges ++ [record] := rfl

@[simp] theorem insert_edges (record : EdgeRecord) : (chain.insert record).edges = record :: chain.edges := rfl

theorem head?_eq (chain : Chain) : chain.edges.head? = some chain.first := List.head?_eq_some_head chain.edges_ne

theorem getLast?_eq (chain : Chain) : chain.edges.getLast? = some chain.last :=
  List.getLast?_eq_some_getLast chain.edges_ne

@[simp] theorem insert_first (record : EdgeRecord) : (chain.insert record).first = record := rfl

@[simp] theorem insert_last (record : EdgeRecord) : (chain.insert record).last = chain.last :=
  List.getLast_cons chain.edges_ne

end Chain

/-- The edges of the chain meet, and with what is left they are the edges that there were. -/
structure Traced (tolerance : ToleranceProfile) (all : List EdgeRecord) (chain : Chain) (unused : List EdgeRecord) :
    Prop where
  meets : chain.edges.IsChain (Meets tolerance)
  kept : ((chain.edges ++ unused).map EdgeRecord.bothWays).Perm (all.map EdgeRecord.bothWays)

theorem Traced.single (record : EdgeRecord) : Traced tolerance (record :: unused) (.single record) unused where
  meets := .singleton record
  kept := .refl _

theorem Traced.append {index : Nat} {record : EdgeRecord} (h : Traced tolerance all chain unused)
    (hmatch : findMatch tolerance.coincidenceMm chain.last.endPoint unused = some (index, record)) :
    Traced tolerance all (chain.append record) (unused.eraseIdx index) := by
  obtain ⟨hmeets, hperm⟩ := findMatch_spec hmatch
  constructor
  · rw [Chain.append_edges, List.isChain_append, chain.getLast?_eq]
    refine ⟨h.meets, .singleton record, ?_⟩
    simpa [Meets] using hmeets
  · rw [Chain.append_edges, List.append_assoc, List.singleton_append, List.map_append]
    apply (List.Perm.append_left _ hperm.symm).trans
    rw [← List.map_append]
    exact h.kept

theorem Traced.insert {index : Nat} {record : EdgeRecord} (h : Traced tolerance all chain unused)
    (hmatch : findMatch tolerance.coincidenceMm chain.first.startPoint unused = some (index, record)) :
    Traced tolerance all (chain.insert record.reverse) (unused.eraseIdx index) := by
  obtain ⟨hmeets, hperm⟩ := findMatch_spec hmatch
  constructor
  · rw [Chain.insert_edges, List.isChain_cons, chain.head?_eq]
    refine ⟨?_, h.meets⟩
    rw [distanceTo_comm] at hmeets
    simpa [Meets] using hmeets
  · have hcons : (record.reverse :: chain.edges ++ unused.eraseIdx index).map EdgeRecord.bothWays =
        record.bothWays :: (chain.edges.map EdgeRecord.bothWays ++ (unused.eraseIdx index).map EdgeRecord.bothWays) := by
      simp
    rw [Chain.insert_edges, hcons]
    apply List.perm_middle.symm.trans
    apply (List.Perm.append_left _ hperm.symm).trans
    rw [← List.map_append]
    exact h.kept

/-! ## The two loops -/

theorem Unmet.mono (h : Unmet tolerance p unused) (hle : all.Sublist unused) : Unmet tolerance p all :=
  fun record hrecord => h record (hle.subset hrecord)

theorem extendEnd_traced (h : Traced tolerance all chain unused) :
    Traced tolerance all (extendEnd tolerance chain unused).1 (extendEnd tolerance chain unused).2 ∧
      (tolerance.IsCoincident (extendEnd tolerance chain unused).1.gap ∨
        Unmet tolerance (extendEnd tolerance chain unused).1.last.endPoint (extendEnd tolerance chain unused).2) := by
  fun_induction extendEnd tolerance chain unused with
  | case1 chain unused hnone => exact ⟨h, .inr (findMatch_eq_none hnone)⟩
  | case2 chain unused index record hmatch hclosed => exact ⟨h.append hmatch, .inl hclosed⟩
  | case3 chain unused index record hmatch hopen ih => exact ih (h.append hmatch)

/-- What extends the start is taken from what was left, and the end stays where it is. -/
theorem extendStart_traced (h : Traced tolerance all chain unused) :
    Traced tolerance all (extendStart tolerance chain unused).1 (extendStart tolerance chain unused).2 ∧
      (extendStart tolerance chain unused).1.last = chain.last ∧
      (extendStart tolerance chain unused).2.Sublist unused ∧
      (tolerance.IsCoincident (extendStart tolerance chain unused).1.gap ∨
        Unmet tolerance (extendStart tolerance chain unused).1.first.startPoint
          (extendStart tolerance chain unused).2) := by
  fun_induction extendStart tolerance chain unused with
  | case1 chain unused hclosed => exact ⟨h, rfl, .refl unused, .inl hclosed⟩
  | case2 chain unused hopen hnone => exact ⟨h, rfl, .refl unused, .inr (findMatch_eq_none hnone)⟩
  | case3 chain unused hopen index record hmatch ih =>
      obtain ⟨htraced, hlast, hle, hend⟩ := ih (h.insert hmatch)
      exact ⟨htraced, hlast.trans (chain.insert_last record.reverse), hle.trans (List.eraseIdx_sublist _ _), hend⟩

theorem extendStart_of_closed (h : tolerance.IsCoincident chain.gap) :
    extendStart tolerance chain unused = (chain, unused) := by
  rw [extendStart, if_pos h]

/-- A chain that is not closed cannot be extended by what it leaves. -/
theorem traceChain_traced (record : EdgeRecord) (unused : List EdgeRecord) :
    Traced tolerance (record :: unused) (traceChain tolerance record unused).1 (traceChain tolerance record unused).2 ∧
      (tolerance.IsCoincident (traceChain tolerance record unused).1.gap ∨
        (Unmet tolerance (traceChain tolerance record unused).1.first.startPoint (traceChain tolerance record unused).2 ∧
          Unmet tolerance (traceChain tolerance record unused).1.last.endPoint
            (traceChain tolerance record unused).2)) := by
  obtain ⟨hend, hended⟩ := extendEnd_traced (@Traced.single tolerance unused record)
  obtain ⟨htraced, hlast, hle, hstarted⟩ := extendStart_traced hend
  refine ⟨htraced, ?_⟩
  rcases hended with hclosed | hunmet
  · left
    unfold traceChain
    dsimp only
    rw [extendStart_of_closed hclosed]
    exact hclosed
  · apply hstarted.imp_right
    intro hstart
    refine ⟨hstart, ?_⟩
    unfold traceChain
    dsimp only
    rw [hlast]
    exact hunmet.mono hle

/-! ## All chains -/

/-- No end of the one meets an end of the other. -/
def Apart (tolerance : ToleranceProfile) (chain chain' : Chain) : Prop :=
  ∀ p ∈ chain.ends, ∀ q ∈ chain'.ends, ¬ tolerance.IsCoincident (p.distanceTo q)

/-- The edges are in these chains, each of them in one, and the chains are as long as they can be. -/
structure Partition (tolerance : ToleranceProfile) (edges : List EdgeRecord) (closed opened : List Chain) : Prop where
  kept : (((closed ++ opened).flatMap Chain.edges).map EdgeRecord.bothWays).Perm (edges.map EdgeRecord.bothWays)
  meets : ∀ chain ∈ closed ++ opened, chain.edges.IsChain (Meets tolerance)
  closes : ∀ chain ∈ closed, tolerance.IsCoincident chain.gap
  opens : ∀ chain ∈ opened, ¬ tolerance.IsCoincident chain.gap
  apart : opened.Pairwise (Apart tolerance)

/-- An end of a chain is an end of an edge that it was made of. -/
theorem ends_of_kept {edges : List EdgeRecord} {chains : List Chain}
    (h : ((chains.flatMap Chain.edges).map EdgeRecord.bothWays).Perm (edges.map EdgeRecord.bothWays))
    (hchain : chain ∈ chains) (hp : p ∈ chain.ends) : ∃ record ∈ edges, EndsAt record p := by
  have hedge : ∃ record ∈ chain.edges, EndsAt record p := by
    rcases List.mem_cons.mp hp with rfl | hp
    · exact ⟨chain.first, List.head_mem chain.edges_ne, .inl rfl⟩
    · rw [List.mem_singleton.mp hp]
      exact ⟨chain.last, List.getLast_mem chain.edges_ne, .inr rfl⟩
  obtain ⟨record, hrecord, hends⟩ := hedge
  have hmem : record.bothWays ∈ edges.map EdgeRecord.bothWays :=
    h.subset (List.mem_map_of_mem (List.mem_flatMap_of_mem hchain hrecord))
  obtain ⟨record', hrecord', heq⟩ := List.mem_map.mp hmem
  refine ⟨record', hrecord', ?_⟩
  rcases EdgeRecord.bothWays_eq_iff.mp heq with rfl | rfl
  · exact hends
  · unfold EndsAt at hends ⊢
    simpa using hends.symm

section

variable {rest : List EdgeRecord} {closed opened : List Chain}

/-- One more chain takes its edges out of what there is. -/
theorem Traced.kept_cons (h : Traced tolerance all chain rest)
    (hrest : (((closed ++ opened).flatMap Chain.edges).map EdgeRecord.bothWays).Perm (rest.map EdgeRecord.bothWays)) :
    (((chain :: (closed ++ opened)).flatMap Chain.edges).map EdgeRecord.bothWays).Perm
      (all.map EdgeRecord.bothWays) := by
  rw [List.flatMap_cons, List.map_append]
  apply (List.Perm.append_left _ hrest).trans
  rw [← List.map_append]
  exact h.kept

theorem Partition.close (h : Partition tolerance rest closed opened) (htraced : Traced tolerance all chain rest)
    (hclosed : tolerance.IsCoincident chain.gap) : Partition tolerance all (chain :: closed) opened where
  kept := htraced.kept_cons h.kept
  meets := by
    rw [List.cons_append, List.forall_mem_cons]
    exact ⟨htraced.meets, h.meets⟩
  closes := List.forall_mem_cons.mpr ⟨hclosed, h.closes⟩
  opens := h.opens
  apart := h.apart

theorem Partition.open (h : Partition tolerance rest closed opened) (htraced : Traced tolerance all chain rest)
    (hopen : ¬ tolerance.IsCoincident chain.gap) (hstart : Unmet tolerance chain.first.startPoint rest)
    (hend : Unmet tolerance chain.last.endPoint rest) : Partition tolerance all closed (chain :: opened) where
  kept := ((List.perm_middle.flatMap_right Chain.edges).map EdgeRecord.bothWays).trans (htraced.kept_cons h.kept)
  meets := by
    intro chain' hchain'
    rcases List.mem_cons.mp (List.perm_middle.subset hchain') with rfl | hrest
    · exact htraced.meets
    · exact h.meets chain' hrest
  closes := h.closes
  opens := List.forall_mem_cons.mpr ⟨hopen, h.opens⟩
  apart := by
    refine List.pairwise_cons.mpr ⟨?_, h.apart⟩
    intro chain' hchain' p hp q hq
    obtain ⟨record, hrecord, hends⟩ := ends_of_kept h.kept (List.mem_append_right closed hchain') hq
    rcases List.mem_cons.mp hp with rfl | hp
    · exact hstart record hrecord q hends
    · rw [List.mem_singleton.mp hp]
      exact hend record hrecord q hends

end

theorem traceChains_head {record : EdgeRecord} (h : tolerance.IsCoincident (traceChain tolerance record unused).1.gap) :
    (traceChain tolerance record unused).1 ∈ (traceChains tolerance (record :: unused)).1 := by
  rw [traceChains]
  simp only [if_pos h]
  exact List.mem_cons_self

theorem traceChains_rest {record : EdgeRecord}
    (h : chain ∈ (traceChains tolerance (traceChain tolerance record unused).2).1) :
    chain ∈ (traceChains tolerance (record :: unused)).1 := by
  rw [traceChains]
  dsimp only
  split
  · exact List.mem_cons_of_mem _ h
  · exact h

theorem traceChains_partition (edges : List EdgeRecord) :
    Partition tolerance edges (traceChains tolerance edges).1 (traceChains tolerance edges).2 := by
  fun_induction traceChains tolerance edges with
  | case1 => exact ⟨by simp, by simp, by simp, by simp, by simp⟩
  | case2 record unused traced closed opened hrest hclosed ih =>
      rw [hrest] at ih
      exact ih.close (traceChain_traced record unused).1 hclosed
  | case3 record unused traced closed opened hrest hopen ih =>
      obtain ⟨htraced, hends⟩ := @traceChain_traced tolerance record unused
      obtain ⟨hstart, hend⟩ := hends.resolve_left hopen
      rw [hrest] at ih
      exact ih.open htraced hopen hstart hend

/-! ## The analysis -/

/-- A circle ends where it begins. -/
theorem normalizeCircle_closed {center : Point2D} {radius : ℝ} {c : CurveParams}
    (h : normalizeCircle center radius = .ok c) : c.endPoint = c.startPoint := by
  have hfields := CurveFields.checked_ok h
  have hradius : c.radiusMm = some radius := by rw [hfields]
  have hstart : c.startAngleDeg = 0 := by rw [hfields]
  have hsweep : c.sweepDeg = 360 := by rw [hfields]
  have hturn : radians 360 = 2 * Real.pi := by
    unfold radians
    ring
  have hnone : radians 0 = 0 := zero_mul _
  unfold CurveParams.endPoint CurveParams.startPoint CurveParams.pointAt
  rw [hradius, hstart, hsweep]
  simp [hturn, hnone]

/-- The edge of a circle. -/
def EdgeRecord.IsCircle (record : EdgeRecord) : Prop :=
  ∃ center radius c, record.edge = .curve c ∧ normalizeCircle center radius = .ok c

theorem EdgeRecord.IsCircle.closed {record : EdgeRecord} (h : record.IsCircle) : record.endPoint = record.startPoint := by
  obtain ⟨center, radius, c, hedge, hc⟩ := h
  rw [endPoint, startPoint, hedge]
  exact normalizeCircle_closed hc

theorem entityEdges_circle {entity : EntityRecord} {records : List EdgeRecord} (h : entityEdges entity = .ok (records, true)) :
    ∀ record ∈ records, record.IsCircle := by
  rcases entity with ⟨ref, geometry⟩
  cases geometry with
  | line start endPoint => simp [entityEdges] at h
  | arc center radius a b =>
      obtain ⟨c, -, heq⟩ := Fallible.bind_eq_ok.mp h
      simp at heq
  | circle center radius =>
      obtain ⟨c, hc, heq⟩ := Fallible.bind_eq_ok.mp h
      obtain ⟨rfl, -⟩ := Prod.mk.inj (Except.ok.inj heq)
      intro record hrecord
      obtain rfl := List.mem_singleton.mp hrecord
      exact ⟨center, radius, c, rfl, hc⟩
  | polyline vertices closed =>
      obtain ⟨edges, -, heq⟩ := Fallible.bind_eq_ok.mp h
      simp at heq

theorem modelEdges_circle {entities : List EntityRecord} {edges circles : List EdgeRecord}
    (h : modelEdges entities = .ok (edges, circles)) : ∀ record ∈ circles, record.IsCircle := by
  obtain ⟨found, hfound, heq⟩ := Fallible.bind_eq_ok.mp h
  obtain ⟨-, rfl⟩ := Prod.mk.inj (Except.ok.inj heq)
  intro record hrecord
  obtain ⟨⟨records, flag⟩, hmem, hrecord⟩ := List.mem_flatMap.mp hrecord
  obtain ⟨hmem, rfl⟩ := List.mem_filter.mp hmem
  obtain ⟨entity, -, hentity⟩ := Fallible.mem_of_forall₂ (Fallible.mapM_eq_ok.mp hfound) hmem
  exact entityEdges_circle hentity record hrecord

theorem distanceTo_self (p : Point2D) : p.distanceTo p = 0 := by
  simp [Point2D.distanceTo]

end CadHarness.Geometry
