import CadHarness.Geometry.Contours
import CadHarness.Geometry.Patterns
import Mathlib.Data.List.Basic

/-!
# Tracing contours

`analyze_contours` of `cad_harness.comprehension.contours`, up to the forest of its contours: the edges of a drawing
are chained where their ends meet, and a chain whose ends meet is a contour.
-/

namespace CadHarness.Geometry

structure AssembledContour where
  contour : CurveContour
  entityRefs : List String
  edges : List EdgeRecord
  isCircle : Bool := false

structure OpenContourFinding where
  gapMm : ℝ
  endpointEntityRefs : String × String

structure ContourAnalysis where
  contours : List AssembledContour
  openContours : List OpenContourFinding

/-- A chain, which has an edge from its beginning. -/
structure Chain where
  edges : List EdgeRecord
  edges_ne : edges ≠ []

/-- `_unique_refs` -/
def uniqueRefs (records : List EdgeRecord) : List String := (records.map EdgeRecord.entityRef).eraseDups

noncomputable section

namespace Chain

variable (chain : Chain) (record : EdgeRecord)

def single : Chain := ⟨[record], List.cons_ne_nil record []⟩

/-- `chain.append(record)` -/
def append : Chain := ⟨chain.edges ++ [record], List.concat_ne_nil record chain.edges⟩

/-- `chain.insert(0, record)` -/
def insert : Chain := ⟨record :: chain.edges, List.cons_ne_nil record chain.edges⟩

def first : EdgeRecord := chain.edges.head chain.edges_ne

def last : EdgeRecord := chain.edges.getLast chain.edges_ne

/-- The two ends of the chain. -/
def ends : List Point2D := [chain.first.startPoint, chain.last.endPoint]

def gap : ℝ := chain.last.endPoint.distanceTo chain.first.startPoint

end Chain

theorem findMatch_lt {coincidenceMm : ℝ} {endpoint : Point2D} {unused : List EdgeRecord} {index : Nat}
    {record : EdgeRecord} (h : findMatch coincidenceMm endpoint unused = some (index, record)) :
    index < unused.length := by
  induction unused generalizing index with
  | nil => simp [findMatch] at h
  | cons candidate rest ih =>
      unfold findMatch at h
      split at h
      · obtain ⟨rfl, -⟩ := Prod.mk.inj (Option.some.inj h)
        simp
      · split at h
        · obtain ⟨rfl, -⟩ := Prod.mk.inj (Option.some.inj h)
          simp
        · obtain ⟨⟨i, r⟩, hmatch, heq⟩ := Option.map_eq_some_iff.mp h
          obtain ⟨rfl, rfl⟩ := Prod.mk.inj heq
          simpa using ih hmatch

theorem length_eraseIdx_lt {coincidenceMm : ℝ} {endpoint : Point2D} {unused : List EdgeRecord} {index : Nat}
    {record : EdgeRecord} (h : findMatch coincidenceMm endpoint unused = some (index, record)) :
    (unused.eraseIdx index).length < unused.length := by
  have hlt := findMatch_lt h
  rw [List.length_eraseIdx_of_lt hlt]
  omega

variable (tolerance : ToleranceProfile)

open Classical in
/-- The first loop over a chain: its end is extended until nothing is left that meets it, or it meets the start. -/
def extendEnd (chain : Chain) (unused : List EdgeRecord) : Chain × List EdgeRecord :=
  match _h : findMatch tolerance.coincidenceMm chain.last.endPoint unused with
  | none => (chain, unused)
  | some (index, record) =>
      if tolerance.IsCoincident (chain.append record).gap then (chain.append record, unused.eraseIdx index)
      else extendEnd (chain.append record) (unused.eraseIdx index)
termination_by unused.length
decreasing_by exact length_eraseIdx_lt _h

open Classical in
/-- The second loop: the start is extended in the same way. -/
def extendStart (chain : Chain) (unused : List EdgeRecord) : Chain × List EdgeRecord :=
  if tolerance.IsCoincident chain.gap then (chain, unused)
  else
    match _h : findMatch tolerance.coincidenceMm chain.first.startPoint unused with
    | none => (chain, unused)
    | some (index, record) => extendStart (chain.insert record.reverse) (unused.eraseIdx index)
termination_by unused.length
decreasing_by exact length_eraseIdx_lt _h

/-- The chain that begins with an edge, and what it leaves. -/
def traceChain (record : EdgeRecord) (unused : List EdgeRecord) : Chain × List EdgeRecord :=
  let ended := extendEnd tolerance (.single record) unused
  extendStart tolerance ended.1 ended.2

theorem extendEnd_length_le (chain : Chain) (unused : List EdgeRecord) :
    (extendEnd tolerance chain unused).2.length ≤ unused.length := by
  fun_induction extendEnd tolerance chain unused with
  | case1 => exact le_refl _
  | case2 chain unused index record h => exact (length_eraseIdx_lt h).le
  | case3 chain unused index record h hopen ih => exact ih.trans (length_eraseIdx_lt h).le

theorem extendStart_length_le (chain : Chain) (unused : List EdgeRecord) :
    (extendStart tolerance chain unused).2.length ≤ unused.length := by
  fun_induction extendStart tolerance chain unused with
  | case1 => exact le_refl _
  | case2 => exact le_refl _
  | case3 chain unused hopen index record h ih => exact ih.trans (length_eraseIdx_lt h).le

theorem traceChain_length_le (record : EdgeRecord) (unused : List EdgeRecord) :
    (traceChain tolerance record unused).2.length ≤ unused.length :=
  (extendStart_length_le tolerance _ _).trans (extendEnd_length_le tolerance _ _)

open Classical in
/-- The chains that are closed, and those that are not. -/
def traceChains : List EdgeRecord → List Chain × List Chain
  | [] => ([], [])
  | record :: unused =>
      let traced := traceChain tolerance record unused
      let (closed, opened) := traceChains traced.2
      if tolerance.IsCoincident traced.1.gap then (traced.1 :: closed, opened) else (closed, traced.1 :: opened)
termination_by unused => unused.length
decreasing_by exact Nat.lt_succ_of_le (traceChain_length_le tolerance record unused)

theorem Chain.contour_ne (chain : Chain) : chain.edges.map EdgeRecord.edge ≠ [] := by
  simpa using chain.edges_ne

def Chain.assembled (chain : Chain) : AssembledContour where
  contour := ⟨chain.edges.map EdgeRecord.edge, chain.contour_ne⟩
  entityRefs := uniqueRefs chain.edges
  edges := chain.edges

def Chain.finding (chain : Chain) : OpenContourFinding where
  gapMm := chain.gap
  endpointEntityRefs := (chain.first.entityRef, chain.last.entityRef)

/-- A circle is a contour alone. -/
def circleContour (record : EdgeRecord) : AssembledContour where
  contour := ⟨[record.edge], List.cons_ne_nil record.edge []⟩
  entityRefs := [record.entityRef]
  edges := [record]
  isCircle := true

/-- `_entity_edges`: the edges of a drawing, and its circles -/
def modelEdges (entities : List EntityRecord) : Except KernelError (List EdgeRecord × List EdgeRecord) := do
  let found ← entities.mapM entityEdges
  return ((found.filter fun edges => !edges.2).flatMap Prod.fst, (found.filter fun edges => edges.2).flatMap Prod.fst)

/-- `analyze_contours`, whose forest is left out -/
def analyzeContours (entities : List EntityRecord) : Except KernelError ContourAnalysis := do
  let (edges, circles) ← modelEdges entities
  let (closed, opened) := traceChains tolerance edges
  return {
    contours := circles.map circleContour ++ closed.map Chain.assembled
    openContours := opened.map Chain.finding }

end

end CadHarness.Geometry
