import CadHarness.Drawing.DxfReader
import CadHarness.Drawing.DxfTheorems
import Mathlib.Logic.Relation

/-!
# Summaries and full reads

What a summary counts as unsupported, and what a full read does. The first walks the definitions of the blocks, the
second the entities that a block reference expands to; both count the same names, unless a reference names no block.
-/

namespace CadHarness.Drawing
open CadHarness.Geometry (ToleranceProfile)
open CadHarness.Lib

/-! ## What is unsupported down to some depth -/

section
variable (document : Document)

def Document.blockChildren (name : String) : List DxfEntity :=
  match document.blocks name with
  | .found block => block.entities
  | _ => []

/-- The names counted in a block, some levels of blocks down. -/
def unsupportedInBlock : Nat → String → List String
  | 0, _ => []
  | depth + 1, name => (document.blockChildren name).flatMap fun child =>
      if ¬ Supported document child then [countedName document child]
      else
        match child.insert? with
        | some i => unsupportedInBlock depth i.name
        | none => []

def unsupportedIn (depth : Nat) (entity : DxfEntity) : List String :=
  if ¬ Supported document entity then [countedName document entity]
  else
    match entity.insert? with
    | some i => unsupportedInBlock document depth i.name
    | none => []

/-- No reference that is followed some levels down names a block that is not there. -/
def BlockDefined : Nat → String → Prop
  | 0, _ => True
  | depth + 1, name => document.blocks name ≠ .none ∧ ∀ child ∈ document.blockChildren name,
      Supported document child → ∀ i, child.insert? = some i → BlockDefined depth i.name

def Defined (depth : Nat) (entity : DxfEntity) : Prop :=
  Supported document entity → ∀ i, entity.insert? = some i → BlockDefined document depth i.name

/-- A block with a reference to another. -/
def Refers (name other : String) : Prop :=
  ∃ child ∈ document.blockChildren name, ∃ i, child.insert? = some i ∧ i.name = other

/-- No block below the last level has a reference that names a block that is not there. -/
def BlockDefinedBelow : Nat → String → Prop
  | 0, name => ∀ other, Relation.ReflTransGen (Refers document) name other → document.blocks other ≠ .none
  | depth + 1, name => ∀ child ∈ document.blockChildren name,
      Supported document child → ∀ i, child.insert? = some i → BlockDefinedBelow depth i.name

def DefinedBelow (depth : Nat) (entity : DxfEntity) : Prop :=
  Supported document entity → ∀ i, entity.insert? = some i → BlockDefinedBelow document depth i.name

/-- An entity that a reader sees as it does another. -/
structure SameKind (entity other : DxfEntity) : Prop where
  dxftype : other.dxftype = entity.dxftype
  block : other.insert?.map Insert.name = entity.insert?.map Insert.name

/-- A block reference yields one entity of the same type for each child of its block. -/
def Document.ExpandsBlocks : Prop :=
  ∀ entity i, entity.data = .insert i → ∃ children, document.virtualEntities entity = .ok children ∧
    List.Forall₂ SameKind (document.blockChildren i.name) children

end

variable {document : Document}

theorem unsupportedInBlock_succ (depth : Nat) (name : String) : unsupportedInBlock document (depth + 1) name =
    (document.blockChildren name).flatMap (unsupportedIn document depth) := rfl

theorem blockDefined_succ {depth : Nat} {name : String} : BlockDefined document (depth + 1) name ↔
    document.blocks name ≠ .none ∧ ∀ child ∈ document.blockChildren name, Defined document depth child := Iff.rfl

theorem blockDefinedBelow_succ {depth : Nat} {name : String} : BlockDefinedBelow document (depth + 1) name ↔
    ∀ child ∈ document.blockChildren name, DefinedBelow document depth child := Iff.rfl

/-! ## The walk over definitions -/

/-- Each entry of the cache counts what is unsupported in its block. -/
def CacheOk (document : Document) (cache : BlockCache) : Prop :=
  ∀ name depth counts, cache.lookup (name, depth) = some counts →
    BlockDefined document depth name ∧ counts.Counts (unsupportedInBlock document depth name)

theorem CacheOk.cons {cache : BlockCache} {name : String} {depth : Nat} {counts : Counter} (h : CacheOk document cache)
    (hdefined : BlockDefined document depth name) (hcounts : counts.Counts (unsupportedInBlock document depth name)) :
    CacheOk document (((name, depth), counts) :: cache) := by
  intro other depth' counts' hlookup
  by_cases hkey : (other, depth') = (name, depth)
  · cases hkey
    rw [List.lookup_cons_self] at hlookup
    cases hlookup
    exact ⟨hdefined, hcounts⟩
  · rw [List.lookup_cons, beq_false_of_ne hkey] at hlookup
    exact h other depth' counts' hlookup

theorem countChild_settles {depth : Nat} {descend : String → StateT BlockCache (Except Raised) Counter}
    (hdescend : ∀ name, Settles (descend name) (CacheOk document) (BlockDefined document depth name) fun counts cache =>
      counts.Counts (unsupportedInBlock document depth name) ∧ CacheOk document cache)
    (before : List String) (counts : Counter) (child : DxfEntity) :
    Settles (countChild document (depth + 1) descend counts child)
      (fun cache => counts.Counts before ∧ CacheOk document cache) (Defined document depth child)
      fun counts cache => counts.Counts (before ++ unsupportedIn document depth child) ∧ CacheOk document cache := by
  unfold countChild Defined unsupportedIn
  by_cases hsupported : Supported document child
  · simp only [hsupported, not_true_eq_false, if_false, forall_const]
    cases hinsert : child.insert? with
    | none =>
        refine (Settles.pure fun cache h => ?_).mono (fun _ h => h) (by simp) fun _ _ h => h
        simpa using h
    | some i =>
        cases depth with
        | zero =>
            refine (Settles.pure fun cache h => ?_).mono (fun _ h => h) (by simp [BlockDefined]) fun _ _ h => h
            simpa [unsupportedInBlock] using h
        | succ depth =>
            have hdeep : 1 < depth + 1 + 1 := by omega
            simp only [if_pos hdeep]
            constructor
            · intro hdefined cache h
              obtain ⟨counts', cache', hrun, hcounts', hcache'⟩ := (hdescend i.name).ok (hdefined i rfl) cache h.2
              exact ⟨counts.update counts', cache', by rw [StateT.run_map, hrun]; rfl, h.1.update hcounts', hcache'⟩
            · intro hdefined cache h
              have hnot : ¬ BlockDefined document (depth + 1) i.name := fun hblock =>
                hdefined fun j hj => by cases hj; exact hblock
              obtain ⟨e, hrun⟩ := (hdescend i.name).error hnot cache h.2
              exact ⟨e, by rw [StateT.run_map, hrun]; rfl⟩
  · simp only [hsupported, not_false_eq_true, if_true, false_imp_iff]
    exact Settles.pure fun cache h => ⟨h.1.add _, h.2⟩

theorem blockUnsupportedDescendants_settles (depth : Nat) (name : String) (visiting : List (String × Nat))
    (hvisiting : ∀ key ∈ visiting, depth < key.2) :
    Settles (blockUnsupportedDescendants document depth name visiting) (CacheOk document)
      (BlockDefined document depth name) fun counts cache =>
        counts.Counts (unsupportedInBlock document depth name) ∧ CacheOk document cache := by
  induction depth generalizing name visiting with
  | zero => exact Settles.pure fun cache h => ⟨Counter.counts_nil, h⟩
  | succ depth ih =>
      unfold blockUnsupportedDescendants
      refine Settles.get_bind fun cache hcache => ?_
      cases hlookup : cache.lookup (name, depth + 1) with
      | some counts =>
          obtain ⟨hdefined, hcounts⟩ := hcache name (depth + 1) counts hlookup
          simp only
          refine (Settles.pure fun s hs => ?_).mono (fun _ h => h) (iff_true_intro hdefined) fun _ _ h => h
          exact ⟨hcounts, hs ▸ hcache⟩
      | none =>
          -- The remaining depth decreases, so that no key is met again while it is visited.
          have hfresh : (name, depth + 1) ∉ visiting := fun hmem => lt_irrefl _ (hvisiting _ hmem)
          simp only [if_neg hfresh]
          rw [blockDefined_succ, unsupportedInBlock_succ]
          unfold Document.blockChildren
          cases hblock : document.blocks name with
          | keyError =>
              refine (Settles.pure fun s hs => ?_).mono (fun _ h => h) (by simp) fun _ _ h => h
              exact ⟨Counter.counts_nil, hs ▸ hcache⟩
          | none => exact (Settles.throw _).mono (fun _ h => h) (by simp) fun _ _ h => h
          | found block =>
              have hdescend (other : String) := ih other ((name, depth + 1) :: visiting) fun key hkey => by
                rcases List.mem_cons.mp hkey with rfl | hkey
                · exact Nat.lt_succ_self depth
                · exact Nat.lt_of_succ_lt (hvisiting key hkey)
              have hloop := Settles.foldlM (J := fun done counts cache =>
                counts.Counts (done.flatMap (unsupportedIn document depth)) ∧ CacheOk document cache)
                (fun done counts child => (countChild_settles hdescend (done.flatMap (unsupportedIn document depth))
                  counts child).mono (fun _ h => h) Iff.rfl fun _ _ h => by
                    rwa [List.flatMap_append, List.flatMap_singleton]) block.entities [] []
              refine ((hloop.returning.bind fun counts => (Settles.modify (Q := fun cache =>
                counts.Counts (block.entities.flatMap (unsupportedIn document depth)) ∧ CacheOk document cache)
                fun cache h => ⟨h.2.1, h.2.2.cons ?_ ?_⟩).bind fun _ => Settles.pure fun cache h => h)).mono
                  (fun s hs => ⟨Counter.counts_nil, hs ▸ hcache⟩) (by simp) fun _ _ h => h
              · rw [blockDefined_succ, Document.blockChildren, hblock]
                exact ⟨by simp, h.1⟩
              · rw [unsupportedInBlock_succ, Document.blockChildren, hblock]
                exact h.2.1

/-- A summary counts at an entity what is unsupported in it. -/
theorem summarizeEntity_settles (depth : Nat) (before : List String) (e : DxfEntity × String) :
    Settles (summarizeEntity document depth e)
      (fun t => t.unsupported.Counts before ∧ CacheOk document t.cache) (Defined document depth e.1)
      fun _ t => t.unsupported.Counts (before ++ unsupportedIn document depth e.1) ∧ CacheOk document t.cache := by
  unfold summarizeEntity Defined unsupportedIn
  refine ((Settles.modify (Q := fun t => t.unsupported.Counts before ∧ CacheOk document t.cache)
    fun t h => h).bind fun _ => ?_).mono (fun _ h => h) (by rw [true_and]) fun _ _ h => h
  by_cases hsupported : Supported document e.1
  · simp only [hsupported, not_true_eq_false, if_false, forall_const]
    cases hinsert : e.1.insert? with
    | none =>
        refine (Settles.pure fun t h => ?_).mono (fun _ h => h) (by simp) fun _ _ h => h
        simpa using h
    | some i =>
        have hblock : Settles (blockUnsupportedDescendants document depth i.name []) _ _ _ :=
          blockUnsupportedDescendants_settles depth i.name [] (by simp)
        constructor
        · intro hdefined t h
          obtain ⟨counts, cache, hrun, hcounts, hcache⟩ := hblock.ok (hdefined i rfl) t.cache h.2
          refine ⟨(), { t with unsupported := t.unsupported.update counts, cache }, ?_, h.1.update hcounts, hcache⟩
          simp only [StateT.run_bind, StateT.run_get, hrun, pure_bind]
          rfl
        · intro hdefined t h
          have hnot : ¬ BlockDefined document depth i.name := fun hblock =>
            hdefined fun j hj => by cases hj; exact hblock
          obtain ⟨error, hrun⟩ := hblock.error hnot t.cache h.2
          refine ⟨error, ?_⟩
          simp only [StateT.run_bind, StateT.run_get, hrun, pure_bind]
          rfl
  · simp only [hsupported, not_false_eq_true, if_true, false_imp_iff]
    exact Settles.modify fun t h => ⟨h.1.add _, h.2⟩

/-! ## The full read -/

theorem unsupportedName_eq (entity : DxfEntity) : unsupportedName document entity =
    match entity.insert? with
    | some i =>
        match document.blocks i.name with
        | .keyError => some "xref"
        | .none => none
        | .found block => if block.flags.testBit 2 then some "xref" else none
    | none => unsupportedNames.lookup entity.dxftype := by
  unfold unsupportedName DxfEntity.insert? DxfEntity.dxftype
  cases entity.data <;> rfl

namespace SameKind
variable {entity other : DxfEntity}

theorem unsupportedName_eq (h : SameKind entity other) :
    unsupportedName document other = unsupportedName document entity := by
  have hblock := h.block
  rw [Drawing.unsupportedName_eq, Drawing.unsupportedName_eq, h.dxftype]
  cases hentity : entity.insert? with
  | none =>
      rw [hentity, Option.map_none, Option.map_eq_none_iff] at hblock
      rw [hblock]
  | some i =>
      rw [hentity, Option.map_some, Option.map_eq_some_iff] at hblock
      obtain ⟨j, hj, hname⟩ := hblock
      simp only [hj, hname]

theorem supported_iff (h : SameKind entity other) : Supported document other ↔ Supported document entity := by
  rw [Supported, Supported, h.unsupportedName_eq, h.dxftype]

theorem countedName_eq (h : SameKind entity other) : countedName document other = countedName document entity := by
  rw [countedName, countedName, h.unsupportedName_eq, h.dxftype]

theorem forall_insert (h : SameKind entity other) {p : String → Prop} :
    (∀ i, other.insert? = some i → p i.name) ↔ ∀ i, entity.insert? = some i → p i.name := by
  have hmap (e : DxfEntity) : (∀ i, e.insert? = some i → p i.name) ↔
      ∀ name, e.insert?.map Insert.name = some name → p name := by
    simp only [Option.map_eq_some_iff]
    constructor
    · rintro h name ⟨i, hi, rfl⟩
      exact h i hi
    · exact fun h i hi => h _ ⟨i, hi, rfl⟩
  rw [hmap, hmap, h.block]

theorem definedBelow_iff (h : SameKind entity other) (depth : Nat) :
    DefinedBelow document depth other ↔ DefinedBelow document depth entity := by
  rw [DefinedBelow, DefinedBelow, h.supported_iff, h.forall_insert]

theorem unsupportedIn_eq (h : SameKind entity other) (depth : Nat) :
    unsupportedIn document depth other = unsupportedIn document depth entity := by
  have hblock := h.block
  unfold unsupportedIn
  rw [h.countedName_eq]
  simp only [h.supported_iff]
  congr 1
  cases hentity : entity.insert? with
  | none =>
      rw [hentity, Option.map_none, Option.map_eq_none_iff] at hblock
      rw [hblock]
  | some i =>
      rw [hentity, Option.map_some, Option.map_eq_some_iff] at hblock
      obtain ⟨j, hj, hname⟩ := hblock
      simp only [hj, hname]

end SameKind

/-- The walk below one child. -/
def countChildDescendants (document : Document) (visiting : List String) (child : DxfEntity) : Except Raised Nat :=
  match child.insert? with
  | some i => (1 + ·) <$> countBlockDescendants document i.name visiting
  | none => .ok 1

theorem countBlockDescendants_found {name : String} {visiting : List String} {block : BlockLayout}
    (hname : name ∉ visiting) (hblock : document.blocks name = .found block) :
    countBlockDescendants document name visiting = do
      let counts ← block.entities.mapM (countChildDescendants document (name :: visiting))
      return counts.sum := by
  rw [countBlockDescendants, dif_neg hname]
  split
  · next h => cases hblock.symm.trans h
  · next h => cases hblock.symm.trans h
  · next h =>
      cases hblock.symm.trans h
      rfl

theorem countBlockDescendants_ok {name : String} {visiting : List String}
    (h : ∀ other, Relation.ReflTransGen (Refers document) name other → document.blocks other ≠ .none) :
    ∃ n, countBlockDescendants document name visiting = .ok n := by
  induction name, visiting using countBlockDescendants.induct document with
  | case1 name visiting hname => exact ⟨0, by rw [countBlockDescendants, dif_pos hname]⟩
  | case2 name visiting hname hblock =>
      refine ⟨0, ?_⟩
      rw [countBlockDescendants, dif_neg hname]
      split
      · rfl
      · next h' => cases hblock.symm.trans h'
      · next h' => cases hblock.symm.trans h'
  | case3 name visiting hname hblock => exact absurd hblock (h name .refl)
  | case4 name visiting hname block hblock ih =>
      have hchildren (child : DxfEntity) (hchild : child ∈ block.entities) :
          ∃ n, countChildDescendants document (name :: visiting) child = .ok n := by
        unfold countChildDescendants
        cases hinsert : child.insert? with
        | none => exact ⟨1, rfl⟩
        | some i =>
            have hrefers : Refers document name i.name := by
              refine ⟨child, ?_, i, hinsert, rfl⟩
              rw [Document.blockChildren, hblock]
              exact hchild
            obtain ⟨n, hn⟩ := ih i fun other hother => h other (.head hrefers hother)
            exact ⟨1 + n, by simp only [hn]; rfl⟩
      choose! counts hcounts using hchildren
      refine ⟨(block.entities.map counts).sum, ?_⟩
      rw [countBlockDescendants_found hname hblock, Fallible.mapM_ok hcounts]
      rfl

/-- A way to another block without some names either ends where it starts or leaves there for good. -/
theorem reflTransGen_leaves {α : Type} {r : α → α → Prop} {avoid : List α} {a b : α}
    (h : Relation.ReflTransGen (fun x y => r x y ∧ y ∉ avoid) a b) :
    b = a ∨ ∃ c, r a c ∧ c ∉ a :: avoid ∧ Relation.ReflTransGen (fun x y => r x y ∧ y ∉ a :: avoid) c b := by
  induction h with
  | refl => exact .inl rfl
  | @tail x y _ hxy ih =>
      by_cases hy : y = a
      · exact .inl hy
      · have hfresh : y ∉ a :: avoid := by simp [hy, hxy.2]
        refine .inr ?_
        rcases ih with rfl | ⟨c, hc, hcfresh, hway⟩
        · exact ⟨y, hxy.1, hfresh, .refl⟩
        · exact ⟨c, hc, hcfresh, hway.tail ⟨hxy.1, hfresh⟩⟩

theorem blocks_ne_none_of_countBlockDescendants {name : String} {visiting : List String} {n : Nat}
    (h : countBlockDescendants document name visiting = .ok n) (hname : name ∉ visiting) {other : String}
    (hway : Relation.ReflTransGen (fun x y => Refers document x y ∧ y ∉ visiting) name other) :
    document.blocks other ≠ .none := by
  induction name, visiting using countBlockDescendants.induct document generalizing n with
  | case1 name visiting hmem => exact absurd hmem hname
  | case2 name visiting _ hblock =>
      rcases reflTransGen_leaves hway with rfl | ⟨c, ⟨child, hchild, -⟩, -⟩
      · simp [hblock]
      · simp [Document.blockChildren, hblock] at hchild
  | case3 name visiting _ hblock =>
      rw [countBlockDescendants, dif_neg hname] at h
      split at h
      · next h' => cases hblock.symm.trans h'
      · cases h
      · next h' => cases hblock.symm.trans h'
  | case4 name visiting _ block hblock ih =>
      rw [countBlockDescendants_found hname hblock, Fallible.bind_eq_ok] at h
      obtain ⟨counts, hcounts, -⟩ := h
      rcases reflTransGen_leaves hway with rfl | ⟨c, ⟨child, hchild, i, hinsert, rfl⟩, hfresh, hway⟩
      · simp [hblock]
      · rw [Document.blockChildren, hblock] at hchild
        obtain ⟨m, -, hm⟩ := Fallible.exists_of_mem_mapM hcounts hchild
        rw [countChildDescendants, hinsert] at hm
        obtain ⟨k, hk, -⟩ := Fallible.map_eq_ok.mp hm
        exact ih i hk hfresh hway

theorem countBlockDescendants_ok_iff {name : String} : (∃ n, countBlockDescendants document name [] = .ok n) ↔
    ∀ other, Relation.ReflTransGen (Refers document) name other → document.blocks other ≠ .none := by
  refine ⟨fun ⟨n, hn⟩ other hway => ?_, countBlockDescendants_ok⟩
  refine blocks_ne_none_of_countBlockDescendants hn List.not_mem_nil
    (hway.lift id fun x y hxy => ⟨hxy, List.not_mem_nil⟩)

theorem forall_mem_iff_of_forall₂ {α β : Type} {r : α → β → Prop} {l : List α} {l' : List β} {p : α → Prop}
    {q : β → Prop} (h : List.Forall₂ r l l') (hpq : ∀ a b, r a b → (p a ↔ q b)) : (∀ a ∈ l, p a) ↔ ∀ b ∈ l', q b := by
  induction h with
  | nil => simp
  | cons hab _ ih => rw [List.forall_mem_cons, List.forall_mem_cons, hpq _ _ hab, ih]

theorem flatMap_eq_of_forall₂ {α β γ : Type} {r : α → β → Prop} {l : List α} {l' : List β} {f : α → List γ}
    {g : β → List γ} (h : List.Forall₂ r l l') (hfg : ∀ a b, r a b → f a = g b) : l.flatMap f = l'.flatMap g := by
  induction h with
  | nil => rfl
  | cons hab _ ih => rw [List.flatMap_cons, List.flatMap_cons, hfg _ _ hab, ih]

theorem forall_mem_zipIdx {α : Type} {l : List α} {p : α → Prop} : (∀ e ∈ l.zipIdx, p e.1) ↔ ∀ a ∈ l, p a := by
  rw [← List.zipIdx_map_fst 0 l, List.forall_mem_map, List.zipIdx_map_fst]

theorem flatMap_zipIdx {α γ : Type} {l : List α} {f : α → List γ} :
    (l.zipIdx.flatMap fun e => f e.1) = l.flatMap f := by
  rw [← List.flatMap_map Prod.fst, List.zipIdx_map_fst]

section
variable {tolerance : ToleranceProfile} {scale : ℝ} {space : String} {maxDepth : Nat}

theorem cutBlockGeometry_settles (i : Insert) (before : List String) :
    Settles (cutBlockGeometry document tolerance scale maxDepth i) (·.Counts before)
      (BlockDefinedBelow document 0 i.name) fun _ counts => counts.Counts before := by
  rw [BlockDefinedBelow, ← countBlockDescendants_ok_iff]
  constructor
  · rintro ⟨n, hn⟩ counts hcounts
    exact ⟨_, counts, by rw [cutBlockGeometry, hn]; rfl, hcounts⟩
  · intro hnone counts _
    cases hn : countBlockDescendants document i.name [] with
    | ok n => exact absurd ⟨n, hn⟩ hnone
    | error e => exact ⟨e, by rw [cutBlockGeometry, hn]; rfl⟩

theorem expandedBlockGeometry_settles (hexpands : document.ExpandsBlocks) {depth remaining : Nat}
    {readChild : DxfEntity → String → ReadM (Option EntityRecord)}
    (hread : ∀ before child refPrefix, Settles (readChild child refPrefix) (·.Counts before)
      (DefinedBelow document remaining child)
      fun _ counts => counts.Counts (before ++ unsupportedIn document remaining child))
    {entity : DxfEntity} {i : Insert} (hdata : entity.data = .insert i) (entityRef : String) (before : List String) :
    Settles (expandedBlockGeometry document tolerance scale depth readChild entity entityRef i) (·.Counts before)
      (BlockDefinedBelow document (remaining + 1) i.name)
      fun _ counts => counts.Counts (before ++ unsupportedInBlock document (remaining + 1) i.name) := by
  obtain ⟨children, hvirtual, hsame⟩ := hexpands entity i hdata
  have hloop := Settles.mapM (J := fun done counts => counts.Counts (before ++
      done.flatMap fun e => unsupportedIn document remaining e.1))
    (fun done (e : DxfEntity × Nat) => (hread _ e.1 s!"{entityRef}/{e.1.dxftype}:{e.2}").mono (fun _ h => h) Iff.rfl
      fun _ _ h => by rwa [List.flatMap_append, List.flatMap_singleton, ← List.append_assoc]) children.zipIdx []
  have hall : (∀ e ∈ children.zipIdx, DefinedBelow document remaining e.1) ↔
      BlockDefinedBelow document (remaining + 1) i.name := by
    rw [forall_mem_zipIdx (p := DefinedBelow document remaining), blockDefinedBelow_succ]
    exact (forall_mem_iff_of_forall₂ hsame fun child other h => (h.definedBelow_iff remaining).symm).symm
  have hnames : (children.zipIdx.flatMap fun e => unsupportedIn document remaining e.1) =
      unsupportedInBlock document (remaining + 1) i.name := by
    rw [flatMap_zipIdx, unsupportedInBlock_succ]
    exact (flatMap_eq_of_forall₂ hsame fun child other h => (h.unsupportedIn_eq remaining).symm).symm
  unfold expandedBlockGeometry
  refine Settles.lift_bind hvirtual ((hloop.bind fun records => Settles.pure (Q := fun _ (counts : Counter) =>
    counts.Counts (before ++ unsupportedInBlock document (remaining + 1) i.name)) fun counts h => ?_).mono
      (fun _ h => ?_) ?_ fun _ _ h => h)
  · rwa [List.nil_append, hnames] at h
  · simpa using h
  · rw [hall, and_true]

theorem insert?_eq_some {entity : DxfEntity} {i : Insert} : entity.insert? = some i ↔ entity.data = .insert i := by
  unfold DxfEntity.insert?
  cases entity.data <;> simp

theorem countUnsupported_settles {depth : Nat} {entity : DxfEntity} (hsupported : ¬ Supported document entity)
    (before : List String) :
    Settles (do countUnsupported document entity; return none : ReadM (Option EntityRecord)) (·.Counts before)
      (DefinedBelow document depth entity)
      fun _ counts => counts.Counts (before ++ unsupportedIn document depth entity) where
  ok _ counts h := by
    refine ⟨none, counts.add (countedName document entity), rfl, ?_⟩
    rw [unsupportedIn, if_pos hsupported]
    exact h.add _
  error hnot := absurd (fun h => absurd h hsupported) hnot

theorem entityRecordWith_settles {depth : Nat} {before : List String} {entity : DxfEntity} {refPrefix : String}
    {blockGeometry : DxfEntity → String → Insert → ReadM (BlockReferenceGeometry EntityRecord)}
    (hblock : ∀ entityRef i, entity.data = .insert i → Settles (blockGeometry entity entityRef i) (·.Counts before)
      (BlockDefinedBelow document depth i.name)
      fun _ counts => counts.Counts (before ++ unsupportedInBlock document depth i.name)) :
    Settles (entityRecordWith document space scale blockGeometry entity refPrefix) (·.Counts before)
      (DefinedBelow document depth entity)
      fun _ counts => counts.Counts (before ++ unsupportedIn document depth entity) := by
  unfold entityRecordWith
  by_cases hsupported : Supported document entity
  · unfold DefinedBelow unsupportedIn
    simp only [hsupported, if_true, not_true_eq_false, if_false, forall_const]
    cases hdata : entity.data with
    | insert i =>
        have hinsert : entity.insert? = some i := insert?_eq_some.mpr hdata
        have hread := (hblock (if entity.handle = "" then refPrefix else entity.handle) i hdata).map
          (f := EntityGeometry.blockReference) (S := fun _ counts =>
            counts.Counts (before ++ unsupportedInBlock document depth i.name)) fun _ _ h => h
        simp only [hinsert]
        refine (hread.bind fun geometry => Settles.pure fun counts h => h).mono (fun _ h => h) (by simp) fun _ _ h => h
    | other dxftype h => exact absurd hsupported.2 (by rw [DxfEntity.dxftype, hdata]; exact h)
    | _ =>
        have hinsert : entity.insert? = none := by rw [DxfEntity.insert?, hdata]
        simp only [hinsert]
        refine (Settles.pure fun counts h => ?_).mono (fun _ h => h) (by simp) fun _ _ h => h
        simpa using h
  · rw [if_neg hsupported]
    exact countUnsupported_settles hsupported before

/-- A full read counts at an entity what is unsupported in it. -/
theorem entityRecord_settles (hexpands : document.ExpandsBlocks) (remaining : Nat) (before : List String)
    (entity : DxfEntity) (refPrefix : String) :
    Settles (entityRecord document tolerance space scale maxDepth remaining entity refPrefix) (·.Counts before)
      (DefinedBelow document remaining entity)
      fun _ counts => counts.Counts (before ++ unsupportedIn document remaining entity) := by
  induction remaining generalizing before entity refPrefix with
  | zero =>
      refine entityRecordWith_settles fun entityRef i _ =>
        (cutBlockGeometry_settles i before).mono (fun _ h => h) Iff.rfl fun _ _ h => ?_
      rwa [unsupportedInBlock, List.append_nil]
  | succ remaining ih =>
      exact entityRecordWith_settles fun entityRef i hdata =>
        expandedBlockGeometry_settles hexpands ih hdata entityRef before

theorem readEntities_settles (hexpands : document.ExpandsBlocks) (entities : List (DxfEntity × String)) :
    Settles (readEntities document tolerance scale maxDepth entities) (·.Counts [])
      (∀ e ∈ entities, DefinedBelow document maxDepth e.1)
      fun _ counts => counts.Counts (entities.flatMap fun e => unsupportedIn document maxDepth e.1) := by
  unfold readEntities
  have hloop := Settles.mapM (J := fun done (counts : Counter) => counts.Counts
      (done.flatMap fun e => unsupportedIn document maxDepth e.1.1))
    (f := fun e : (DxfEntity × String) × Nat =>
      if Supported document e.1.1 then
        entityRecord document tolerance e.1.2 scale maxDepth maxDepth e.1.1 s!"root:{e.2}"
      else do
        countUnsupported document e.1.1
        return none) (A := fun e => DefinedBelow document maxDepth e.1.1) (fun done e => ?_) entities.zipIdx []
  · refine (hloop.bind fun records => Settles.pure (Q := fun _ (counts : Counter) =>
      counts.Counts (entities.flatMap fun e => unsupportedIn document maxDepth e.1)) fun counts h => ?_).mono
        (fun _ h => h) ?_ fun _ _ h => h
    · rwa [List.nil_append,
        flatMap_zipIdx (f := fun e : DxfEntity × String => unsupportedIn document maxDepth e.1)] at h
    · rw [forall_mem_zipIdx (p := fun e : DxfEntity × String => DefinedBelow document maxDepth e.1), and_true]
  · rw [List.flatMap_append, List.flatMap_singleton]
    split
    · exact entityRecord_settles hexpands maxDepth _ _ _
    · next hsupported => exact countUnsupported_settles hsupported _

end

theorem summarizeEntities_settles (depth : Nat) (entities : List (DxfEntity × String)) :
    Settles (entities.mapM (summarizeEntity document depth))
      (fun t => t.unsupported.Counts [] ∧ CacheOk document t.cache) (∀ e ∈ entities, Defined document depth e.1)
      fun _ t => t.unsupported.Counts (entities.flatMap fun e => unsupportedIn document depth e.1) :=
  (Settles.mapM (J := fun done (t : Tally) => t.unsupported.Counts
      (done.flatMap fun e => unsupportedIn document depth e.1) ∧ CacheOk document t.cache)
    (fun done e => (summarizeEntity_settles depth _ e).mono (fun _ h => h) Iff.rfl fun _ _ h => by
      rwa [List.flatMap_append, List.flatMap_singleton]) entities []).mono (fun _ h => h) Iff.rfl fun _ _ h => h.1

/-! ## Agreement -/

/-- The names counted in some entities. -/
def unsupportedNamesIn (document : Document) (depth : Nat) (entities : List (DxfEntity × String)) : List String :=
  entities.flatMap fun e => unsupportedIn document depth e.1

theorem summarize_ok (documentId revision : String) {request : DrawingReadRequest}
    {entities : List (DxfEntity × String)} (hentities : scopedEntities document request.scope = .ok entities)
    (hdefined : ∀ e ∈ entities, Defined document request.maxBlockNestingDepth e.1) :
    ∃ s counts, summarize documentId revision document request = .ok s ∧ s.unsupported = unsupportedRecords counts ∧
      counts.Counts (unsupportedNamesIn document request.maxBlockNestingDepth entities) := by
  obtain ⟨_, t, hrun, hcounts⟩ := (summarizeEntities_settles request.maxBlockNestingDepth entities).ok hdefined {}
    ⟨Counter.counts_nil, fun _ _ _ h => by cases h⟩
  rw [summarize, hentities]
  simp only [Fallible.ok_bind, hrun]
  exact ⟨_, _, rfl, rfl, hcounts⟩

theorem summarize_error (documentId revision : String) {request : DrawingReadRequest}
    {entities : List (DxfEntity × String)} (hentities : scopedEntities document request.scope = .ok entities)
    (hdefined : ¬ ∀ e ∈ entities, Defined document request.maxBlockNestingDepth e.1) :
    ∃ e, summarize documentId revision document request = .error e := by
  obtain ⟨e, hrun⟩ := (summarizeEntities_settles request.maxBlockNestingDepth entities).error hdefined {}
    ⟨Counter.counts_nil, fun _ _ _ h => by cases h⟩
  refine ⟨e, ?_⟩
  rw [summarize, hentities]
  simp only [Fallible.ok_bind, hrun]
  rfl

theorem read_ok (hexpands : document.ExpandsBlocks) (documentId revision displayName : String)
    {tolerance : ToleranceProfile} {request : DrawingReadRequest} {scope : ReadScope}
    {entities : List (DxfEntity × String)} (hscope : request.scope = some scope)
    (hentities : entitiesInScope document scope = .ok entities) (hchord : 0 < tolerance.arcChordToleranceMm)
    (hdefined : ∀ e ∈ entities, DefinedBelow document request.maxBlockNestingDepth e.1) :
    ∃ m counts, read documentId revision displayName tolerance document request = .ok m ∧
      m.unsupported = unsupportedRecords counts ∧
      counts.Counts (unsupportedNamesIn document request.maxBlockNestingDepth entities) := by
  obtain ⟨records, counts, hrun, hcounts⟩ := (readEntities_settles hexpands entities).ok hdefined [] Counter.counts_nil
  obtain ⟨m, hm, -, -, hunsupported, -⟩ := exists_read documentId revision displayName hscope hentities hrun hchord
  exact ⟨m, counts, hm, hunsupported, hcounts⟩

theorem read_error (hexpands : document.ExpandsBlocks) (documentId revision displayName : String)
    {tolerance : ToleranceProfile} {request : DrawingReadRequest} {scope : ReadScope}
    {entities : List (DxfEntity × String)} (hscope : request.scope = some scope)
    (hentities : entitiesInScope document scope = .ok entities)
    (h : ¬ (0 < tolerance.arcChordToleranceMm ∧
      ∀ e ∈ entities, DefinedBelow document request.maxBlockNestingDepth e.1)) :
    ∃ e, read documentId revision displayName tolerance document request = .error e := by
  have hread : Settles (readEntities document tolerance ((unitsOf document).2.getD 1) request.maxBlockNestingDepth
    entities) _ _ _ := readEntities_settles hexpands entities
  rw [read, hscope]
  simp only [hentities, Fallible.ok_bind]
  by_cases hdefined : ∀ e ∈ entities, DefinedBelow document request.maxBlockNestingDepth e.1
  · obtain ⟨records, counts, hrun, -⟩ := hread.ok hdefined [] Counter.counts_nil
    have hchord : ¬ 0 < tolerance.arcChordToleranceMm := fun hchord => h ⟨hchord, hdefined⟩
    simp only [hrun, Fallible.ok_bind, dif_neg hchord]
    exact ⟨_, rfl⟩
  · obtain ⟨e, hrun⟩ := hread.error hdefined [] Counter.counts_nil
    simp only [hrun]
    exact ⟨e, rfl⟩

/-- A summary and a model that both come about and say the same of what is unsupported. -/
def Agree (summary : Except Raised DrawingSummary) (model : Except Raised DrawingModel) : Prop :=
  ∃ s m, summary = .ok s ∧ model = .ok m ∧ s.unsupported = m.unsupported

/-- Every block reference in a block names a block that is there. -/
def Document.Resolves (document : Document) : Prop :=
  ∀ name other, Refers document name other → document.blocks other ≠ .none

theorem Document.Resolves.defined (h : document.Resolves) (depth : Nat) {entity : DxfEntity}
    (hentity : ∀ i, entity.insert? = some i → document.blocks i.name ≠ .none) :
    Defined document depth entity ∧ DefinedBelow document depth entity := by
  have hblock (depth : Nat) (name : String) (hname : document.blocks name ≠ .none) :
      BlockDefined document depth name ∧ BlockDefinedBelow document depth name := by
    induction depth generalizing name with
    | zero =>
        refine ⟨trivial, fun other hway => ?_⟩
        cases hway with
        | refl => exact hname
        | tail _ hrefers => exact h _ _ hrefers
    | succ depth ih =>
        have hchild {child : DxfEntity} (hmem : child ∈ document.blockChildren name) {i : Insert}
            (hi : child.insert? = some i) := ih i.name (h name i.name ⟨child, hmem, i, hi, rfl⟩)
        exact ⟨⟨hname, fun child hmem _ i hi => (hchild hmem hi).1⟩, fun child hmem _ i hi => (hchild hmem hi).2⟩
  exact ⟨fun _ i hi => (hblock depth i.name (hentity i hi)).1, fun _ i hi => (hblock depth i.name (hentity i hi)).2⟩

/-! ## Drawings of block references -/

def reference (name : String) : DxfEntity where
  handle := ""
  data := .insert { name, insert := (0, 0) }

def blockNamed (blocks : List (String × List DxfEntity)) (name : String) : BlockLookup :=
  match blocks.lookup name with
  | some children => .found { entities := children }
  | none => .none

theorem mem_of_blockNamed {blocks : List (String × List DxfEntity)} (name : String) (block : BlockLayout)
    (h : blockNamed blocks name = .found block) : name ∈ blocks.map Prod.fst := by
  unfold blockNamed at h
  cases hlookup : blocks.lookup name with
  | none => simp [hlookup] at h
  | some children => exact List.mem_map_of_mem (f := Prod.fst) (Assoc.mem_of_lookup hlookup)

/-- A document with its block definitions, where a block reference expands to the children of its block. -/
def documentOf (blocks : List (String × List DxfEntity)) (entities : List DxfEntity) : Document where
  layouts := [{ name := "Model", entities }]
  modelspace := { name := "Model", entities }
  layout := fun _ => none
  blocks := blockNamed blocks
  blockNames := blocks.map Prod.fst
  found_mem := mem_of_blockNamed
  virtualEntities := fun entity =>
    match entity.insert? with
    | some i => .ok ((blocks.lookup i.name).getD [])
    | none => .error .attributeError
  extents := fun _ => none
  layerNamed := fun _ => none

theorem blockChildren_documentOf (blocks : List (String × List DxfEntity)) (entities : List DxfEntity) (name : String) :
    (documentOf blocks entities).blockChildren name = (blocks.lookup name).getD [] := by
  have hblocks : (documentOf blocks entities).blocks name = blockNamed blocks name := rfl
  rw [Document.blockChildren, hblocks, blockNamed]
  cases blocks.lookup name <;> rfl

theorem documentOf_expandsBlocks (blocks : List (String × List DxfEntity)) (entities : List DxfEntity) :
    (documentOf blocks entities).ExpandsBlocks := by
  intro entity i hdata
  refine ⟨(blocks.lookup i.name).getD [], ?_, ?_⟩
  · simp only [documentOf, insert?_eq_some.mpr hdata]
  · rw [blockChildren_documentOf]
    exact List.forall₂_same.mpr fun child _ => ⟨rfl, rfl⟩

theorem exists_entitiesInScope_documentOf (blocks : List (String × List DxfEntity)) (entities : List DxfEntity) :
    ∃ space, entitiesInScope (documentOf blocks entities) {} = .ok (entities.map (·, space)) := by
  refine ⟨if "Model".toLower = "model" then "model" else "paper:" ++ "Model", ?_⟩
  simp only [entitiesInScope, documentOf, pure_bind, List.flatMap_singleton]
  simp [Pure.pure, Except.pure, toString]

def deepRequest : DrawingReadRequest where
  scope := shallowRequest.scope
  maxBlockNestingDepth := 3
  depth_pos := by decide
  depth_le := by decide

/-- A spline in a block that holds a reference to the block around it. -/
def cyclicDocument : Document :=
  documentOf [("OUTER", [reference "INNER"]), ("INNER", [reference "OUTER", ⟨"", "0", .other "SPLINE" (by decide)⟩])]
    [reference "OUTER"]

theorem cyclicDocument_resolves : cyclicDocument.Resolves := by
  rintro name other ⟨child, hchild, i, hi, rfl⟩
  rw [cyclicDocument, blockChildren_documentOf] at hchild
  have hchild : child = reference "INNER" ∨ child = reference "OUTER" ∨
      child = ⟨"", "0", .other "SPLINE" (by decide)⟩ := by
    simp only [List.lookup_cons, List.lookup_nil] at hchild
    split at hchild
    · simp_all
    · split at hchild
      · simp_all
      · simp at hchild
  rcases hchild with rfl | rfl | rfl
  · cases hi
    simp [cyclicDocument, documentOf, blockNamed, List.lookup_cons]
  · cases hi
    simp [cyclicDocument, documentOf, blockNamed, List.lookup_cons]
  · cases hi

theorem cyclicDocument_expandsBlocks : cyclicDocument.ExpandsBlocks := documentOf_expandsBlocks _ _

/-- A reference to a block that is not defined. -/
def ghostDocument : Document := documentOf [] [reference "GHOST"]

end CadHarness.Drawing
