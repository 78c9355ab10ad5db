import CadHarness.Canonical.SameValue
import CadHarness.Inspection.Revision
import CadHarness.Lib.Fallible
import Mathlib.Data.List.Perm.Basic

/-!
# The texts of values

The text of a value determines it, among the values that may stand in its place. The text of null is that of
the string "<null>".
-/

/-!
## Documents that differ in order only

Two entities are taken for the same when they differ in the order of their child entities, at any depth, and
in lists that are null in one and empty in the other. The canonical text is then the same, when no two child
entities of one entity share a handle, as validation makes sure.
-/

namespace CadHarness.Inspection
open CadHarness.Lib CadHarness.Lib.Fallible

/-- The geometry with empty lists for those that are null. -/
def InspectionGeometry.withoutNull (geometry : InspectionGeometry) : InspectionGeometry :=
  { geometry with
    bulges := some (geometry.bulges.getD [])
    measuredEntityRefs := some (geometry.measuredEntityRefs.getD [])
    boundaryEntityRefs := some (geometry.boundaryEntityRefs.getD []) }

mutual
inductive Reordered : InspectionEntity → InspectionEntity → Prop
  | mk {attributes : InspectionAttributes} {geometry geometry' : InspectionGeometry}
      {children children' : Option (List InspectionEntity)} :
      geometry.withoutNull = geometry'.withoutNull → ReorderedList (children.getD []) (children'.getD []) →
      Reordered (.mk attributes geometry children) (.mk attributes geometry' children')

inductive ReorderedList : List InspectionEntity → List InspectionEntity → Prop
  | nil : ReorderedList [] []
  | cons {e e' : InspectionEntity} {es es' : List InspectionEntity} :
      Reordered e e' → ReorderedList es es' → ReorderedList (e :: es) (e' :: es')
  | swap (e e' : InspectionEntity) (es : List InspectionEntity) : ReorderedList (e' :: e :: es) (e :: e' :: es)
  | trans {es es' es'' : List InspectionEntity} :
      ReorderedList es es' → ReorderedList es' es'' → ReorderedList es es''
end

/-- Induction over the child entities. -/
@[elab_as_elim] theorem InspectionEntity.induction {P : InspectionEntity → Prop}
    (h : ∀ attributes geometry children, (∀ e ∈ Option.getD children [], P e) → P (.mk attributes geometry children))
    (e : InspectionEntity) : P e :=
  @InspectionEntity.rec P (fun children => ∀ e ∈ children.getD [], P e) (fun es => ∀ e ∈ es, P e)
    (fun _ _ _ ih => h _ _ _ ih) (by simp) (fun _ ih => ih) (by simp)
    (fun _ _ he hes => List.forall_mem_cons.mpr ⟨he, hes⟩) e

/-! ## An equivalence -/

theorem ReorderedList.of_forall₂ {es es' : List InspectionEntity} (h : List.Forall₂ Reordered es es') :
    ReorderedList es es' := by
  induction h with
  | nil => exact .nil
  | cons he _ ih => exact .cons he ih

theorem Reordered.refl (e : InspectionEntity) : Reordered e e := by
  induction e using InspectionEntity.induction with
  | h attributes geometry children ih => exact .mk rfl (.of_forall₂ (List.forall₂_same.mpr ih))

theorem ReorderedList.refl (es : List InspectionEntity) : ReorderedList es es :=
  .of_forall₂ (List.forall₂_same.mpr (fun e _ => Reordered.refl e))

mutual
theorem Reordered.symm {e e' : InspectionEntity} (h : Reordered e e') : Reordered e' e := by
  match h with
  | .mk hgeometry hchildren => exact .mk hgeometry.symm (ReorderedList.symm hchildren)

theorem ReorderedList.symm {es es' : List InspectionEntity} (h : ReorderedList es es') :
    ReorderedList es' es := by
  match h with
  | .nil => exact .nil
  | .cons he hes => exact .cons (Reordered.symm he) (ReorderedList.symm hes)
  | .swap e e' es => exact .swap e' e es
  | .trans h h' => exact .trans (ReorderedList.symm h') (ReorderedList.symm h)
end

theorem Reordered.trans {e e' e'' : InspectionEntity} (h : Reordered e e') (h' : Reordered e' e'') :
    Reordered e e'' := by
  cases h with
  | mk hgeometry hchildren =>
      cases h' with
      | mk hgeometry' hchildren' => exact .mk (hgeometry.trans hgeometry') (hchildren.trans hchildren')

theorem ReorderedList.of_perm {es es' : List InspectionEntity} (h : es.Perm es') : ReorderedList es es' := by
  induction h with
  | nil => exact .nil
  | cons e _ ih => exact .cons (.refl e) ih
  | swap e e' es => exact .swap e e' es
  | trans _ _ ih ih' => exact .trans ih ih'

theorem Reordered.attributes_eq {e e' : InspectionEntity} (h : Reordered e e') : e.attributes = e'.attributes := by
  cases h with
  | mk _ _ => rfl

theorem Reordered.handle_eq {e e' : InspectionEntity} (h : Reordered e e') : e.handle = e'.handle := by
  rw [InspectionEntity.handle, InspectionEntity.handle, h.attributes_eq]

theorem ReorderedList.handles {es es' : List InspectionEntity} (h : ReorderedList es es') :
    (es.map (·.handle)).Perm (es'.map (·.handle)) := by
  match h with
  | .nil => exact .nil
  | .cons he hes =>
      rw [List.map_cons, List.map_cons, he.handle_eq]
      exact hes.handles.cons _
  | .swap e e' es => exact .swap _ _ _
  | .trans h h' => exact h.handles.trans h'.handles

theorem ReorderedList.length_eq {es es' : List InspectionEntity} (h : ReorderedList es es') :
    es.length = es'.length := by
  simpa only [List.length_map] using h.handles.length_eq

/-! ## Properties of a whole tree -/

mutual
/-- The entity and all entities below it have a property. -/
def InspectionEntity.All (p : InspectionAttributes → InspectionGeometry → List InspectionEntity → Prop) :
    InspectionEntity → Prop
  | .mk attributes geometry none => p attributes geometry []
  | .mk attributes geometry (some children) => p attributes geometry children ∧ AllOf p children

def AllOf (p : InspectionAttributes → InspectionGeometry → List InspectionEntity → Prop) :
    List InspectionEntity → Prop
  | [] => True
  | e :: es => e.All p ∧ AllOf p es
end

variable {p : InspectionAttributes → InspectionGeometry → List InspectionEntity → Prop}

theorem allOf_iff {es : List InspectionEntity} : AllOf p es ↔ ∀ e ∈ es, e.All p := by
  induction es with
  | nil => simp [AllOf]
  | cons e es ih => simp [AllOf, ih]

theorem all_mk_iff {attributes : InspectionAttributes} {geometry : InspectionGeometry}
    {children : Option (List InspectionEntity)} :
    (InspectionEntity.mk attributes geometry children).All p ↔
      p attributes geometry (children.getD []) ∧ AllOf p (children.getD []) := by
  cases children with
  | none => simp [InspectionEntity.All, AllOf]
  | some children => simp [InspectionEntity.All]

mutual
/-- A property that does not look at the order holds of a reordered entity. -/
theorem Reordered.all (hp : ∀ attributes geometry geometry' es es', geometry.withoutNull = geometry'.withoutNull →
      ReorderedList es es' → p attributes geometry es → p attributes geometry' es')
    {e e' : InspectionEntity} (h : Reordered e e') (he : e.All p) : e'.All p := by
  match h with
  | .mk hgeometry hchildren =>
      rw [all_mk_iff] at he ⊢
      exact ⟨hp _ _ _ _ _ hgeometry hchildren he.1, ReorderedList.all hp hchildren he.2⟩

theorem ReorderedList.all (hp : ∀ attributes geometry geometry' es es',
      geometry.withoutNull = geometry'.withoutNull → ReorderedList es es' → p attributes geometry es →
      p attributes geometry' es')
    {es es' : List InspectionEntity} (h : ReorderedList es es') (hes : AllOf p es) : AllOf p es' := by
  match h with
  | .nil => exact hes
  | .cons he hrest => exact ⟨Reordered.all hp he hes.1, ReorderedList.all hp hrest hes.2⟩
  | .swap e e' es => exact ⟨hes.2.1, hes.1, hes.2.2⟩
  | .trans h h' => exact ReorderedList.all hp h' (ReorderedList.all hp h hes)
end

/-- No two of the entities have one handle. -/
def DistinctHandles (_ : InspectionAttributes) (_ : InspectionGeometry) (children : List InspectionEntity) : Prop :=
  (children.map (·.handle)).Nodup

theorem ReorderedList.distinct {es es' : List InspectionEntity} (h : ReorderedList es es')
    (hd : AllOf DistinctHandles es) : AllOf DistinctHandles es' :=
  h.all (fun _ _ _ _ _ _ hes hnodup => hes.handles.nodup_iff.mp hnodup) hd

end CadHarness.Inspection

namespace CadHarness.Inspection
open CadHarness.Lib CadHarness.Canonical

variable {band : Band}

theorem encode_injective : Function.Injective Text.encode :=
  Function.LeftInverse.injective Text.decode_encode

theorem ofString_injective : Function.Injective Text.ofString := fun _ _ h =>
  String.toList_injective (encode_injective h)

/-- Text that is not "<null>", because a character stands in only one of the two. -/
theorem encode_ne_nullText {s : List Char} (h : '<' ∉ s) : Text.encode s ≠ nullText := by
  intro he
  rw [encode_injective he] at h
  exact h (by decide)

/-! ## Numbers -/

theorem mem_toStringR {x : Binary64} {c : Char} (h : c ∈ toStringR band x) : isNumberChar c ∨ c = 'E' := by
  simp only [toStringR, List.mem_append] at h
  rcases h with h | h
  · exact .inl (isNumberChar_sign c h)
  · split_ifs at h
    · exact .inl (isNumberChar_fixed h)
    · rcases List.mem_append.mp h with h | h
      · exact .inl (isNumberChar_mantissa h)
      · rcases List.mem_cons.mp h with h | h
        · exact .inr h
        · exact .inl (isNumberChar_exponent h)

namespace RawDouble

def infinityChars (neg : Bool) : List Char := (if neg then "-Infinity" else "Infinity").toList

def nanChars : List Char := "NaN".toList

/-- The characters that `Append` writes for a double. -/
def chars (band : Band) : RawDouble → List Char
  | .finite x => toStringR band x.1
  | .infinity neg => infinityChars neg
  | .nan => nanChars

theorem text_double (x : RawDouble) : (Value.double x).text band = .encode (x.chars band) := by
  cases x with
  | finite x => rfl
  | infinity neg => rfl
  | nan => rfl

theorem notMem_chars_finite {x : Double} {c : Char} (hc : isNumberChar c = false) (hE : c ≠ 'E') :
    c ∉ chars band (.finite x) := by
  intro h
  rcases mem_toStringR h with h | h
  · rw [hc] at h
    cases h
  · exact hE h

theorem chars_injective : Function.Injective (chars band) := by
  have hI : ∀ x : Double, 'I' ∉ chars band (.finite x) := fun x => notMem_chars_finite (by decide) (by decide)
  have hN : ∀ x : Double, 'N' ∉ chars band (.finite x) := fun x => notMem_chars_finite (by decide) (by decide)
  have hinfinity : ∀ neg, 'I' ∈ infinityChars neg := by decide
  have hnan : 'N' ∈ nanChars := by decide
  have hnanI : 'I' ∉ chars band .nan := (by decide : 'I' ∉ nanChars)
  have hneg : ∀ neg neg', infinityChars neg = infinityChars neg' → neg = neg' := by decide
  intro x y h
  cases x with
  | finite x =>
      cases y with
      | finite y => rw [Subtype.ext (toStringR_injective band h)]
      | infinity neg => exact absurd (h ▸ hinfinity neg) (hI x)
      | nan => exact absurd (h ▸ hnan) (hN x)
  | infinity neg =>
      cases y with
      | finite y => exact absurd (h ▸ hinfinity neg) (hI y)
      | infinity neg' => rw [hneg _ _ h]
      | nan => exact absurd (h ▸ hinfinity neg) hnanI
  | nan =>
      cases y with
      | finite y => exact absurd (h ▸ hnan) (hN y)
      | infinity neg => exact absurd (h ▸ hinfinity neg) hnanI
      | nan => rfl

theorem notMem_chars (x : RawDouble) : '<' ∉ x.chars band := by
  cases x with
  | finite x => exact notMem_chars_finite (by decide) (by decide)
  | infinity neg =>
      have : ∀ neg, '<' ∉ infinityChars neg := by decide
      exact this neg
  | nan =>
      have : '<' ∉ nanChars := by decide
      exact this

end RawDouble

/-! ## Values in one place -/

@[simp] theorem text_double_inj {x y : RawDouble} :
    (Value.double x).text band = (Value.double y).text band ↔ x = y := by
  rw [RawDouble.text_double, RawDouble.text_double, encode_injective.eq_iff, RawDouble.chars_injective.eq_iff]

@[simp] theorem text_int_inj {i j : Int} : (Value.int i).text band = (Value.int j).text band ↔ i = j := by
  constructor
  · intro h
    exact integerText_inj (encode_injective h)
  · rintro rfl
    rfl

@[simp] theorem text_bool_inj {b c : Bool} : (Value.bool b).text band = (Value.bool c).text band ↔ b = c := by
  rw [Value.text, Value.text, ofString_injective.eq_iff]
  cases b <;> cases c <;> simp

@[simp] theorem text_string (t : Text) : (Value.string t).text band = t := rfl

@[simp] theorem text_geometryKind_inj {kind kind' : InspectionGeometryKind} :
    (Value.geometryKind kind).text band = (Value.geometryKind kind').text band ↔ kind = kind' := by
  rw [Value.geometryKind, Value.geometryKind, Value.label, Value.label, text_string, text_string,
    ofString_injective.eq_iff]
  cases kind <;> cases kind' <;> simp [InspectionGeometryKind.name]

@[simp] theorem text_styleKind_inj {kind kind' : InspectionStyleKind} :
    (Value.styleKind kind).text band = (Value.styleKind kind').text band ↔ kind = kind' := by
  rw [Value.styleKind, Value.styleKind, Value.label, Value.label, text_string, text_string,
    ofString_injective.eq_iff]
  cases kind <;> cases kind' <;> simp [InspectionStyleKind.name]

@[simp] theorem text_count_inj {α : Type} {l l' : List α} :
    (Value.count l).text band = (Value.count l').text band ↔ l.length = l'.length := by
  rw [Value.count, Value.count, text_int_inj, Int.natCast_inj]

theorem text_double_ne_null (x : RawDouble) : (Value.double x).text band ≠ nullText := by
  rw [RawDouble.text_double]
  exact encode_ne_nullText x.notMem_chars

theorem text_int_ne_null (i : Int) : (Value.int i).text band ≠ nullText := by
  apply encode_ne_nullText
  intro h
  exact absurd ((integerText i).chars _ h) (by decide)

/-- A nullable value, when no value has the text of null. -/
theorem text_optional_inj {α : Type} {f : α → Value} {o o' : Option α}
    (hinj : ∀ a b, (f a).text band = (f b).text band → a = b) (ho : ∀ a ∈ o, (f a).text band ≠ nullText)
    (ho' : ∀ a ∈ o', (f a).text band ≠ nullText)
    (h : (Value.optional f o).text band = (Value.optional f o').text band) : o = o' := by
  cases o with
  | none =>
      cases o' with
      | none => rfl
      | some b => exact absurd h.symm (ho' b rfl)
  | some a =>
      cases o' with
      | none => exact absurd h (ho a rfl)
      | some b => rw [hinj a b h]

@[simp] theorem text_optional_double_inj {o o' : Option RawDouble} :
    (Value.optional .double o).text band = (Value.optional .double o').text band ↔ o = o' := by
  constructor
  · exact text_optional_inj (fun _ _ => text_double_inj.mp) (fun _ _ => text_double_ne_null _)
      (fun _ _ => text_double_ne_null _)
  · rintro rfl
    rfl

@[simp] theorem text_optional_int_inj {o o' : Option Int} :
    (Value.optional .int o).text band = (Value.optional .int o').text band ↔ o = o' := by
  constructor
  · exact text_optional_inj (fun _ _ => text_int_inj.mp) (fun _ _ => text_int_ne_null _)
      (fun _ _ => text_int_ne_null _)
  · rintro rfl
    rfl

/-- The one string that reads as null. -/
theorem text_optional_none : (Value.optional .string none).text band = (Value.optional .string (some nullText)).text band :=
  rfl

/-- A string that is null or not "<null>", of whole characters. -/
def Readable (o : Option Text) : Prop := ∀ t ∈ o, t.WellFormed ∧ t ≠ nullText

theorem text_optional_string_inj {o o' : Option Text} (ho : Readable o) (ho' : Readable o')
    (h : (Value.optional .string o).text band = (Value.optional .string o').text band) : o = o' :=
  text_optional_inj (f := .string) (fun _ _ h => h) (fun t ht => (ho t ht).2) (fun t ht => (ho' t ht).2) h

end CadHarness.Inspection
