import CadHarness.Lib.AsciiText
import CadHarness.Lib.Assoc
import CadHarness.Lib.Fallible

/-!
# Messages between the process and its helper

The sender checks the tree of a payload and its text, the receiver checks the text and the tree that it reads. The text
of a message is its bytes, which are ASCII.
-/

namespace CadHarness.Com

open CadHarness.Lib CadHarness.Lib.Fallible

def STARTUP_IPC_MAX_BYTES : Nat := 1024 * 1024
def RPC_MAX_DEPTH : Nat := 32
def RPC_MAX_ITEMS : Nat := 4096
def RPC_MAX_STRING_BYTES : Nat := 32 * 1024
def RPC_MAX_BYTES_VALUE : Nat := 256 * 1024

/-- A Python value. A key that is no string is `none`. -/
inductive RpcValue (ν : Type) where
  | none
  | bool (b : Bool)
  | num (n : ν)
  | str (s : String)
  | bytes (data : List UInt8)
  | list (xs : List (RpcValue ν))
  | tuple (xs : List (RpcValue ν))
  | dict (ms : List (Option String × RpcValue ν))
  | other (typeName : String)

/-- The integers and the floats. `repr` fails on integers of too many digits. -/
structure Numbers (ν : Type) where
  isfinite : ν → Bool
  repr : ν → Option NumberText
  parse : NumberText → Option ν
  parse_repr : ∀ n text, repr n = some text → parse text = some n

variable {ν : Type}

namespace RpcValue

mutual
/-- A dict has one entry for a key. -/
def DistinctKeys : RpcValue ν → Prop
  | .none | .bool _ | .num _ | .str _ | .bytes _ | .other _ => True
  | .list xs | .tuple xs => DistinctKeysItems xs
  | .dict ms => (ms.map Prod.fst).Nodup ∧ DistinctKeysMembers ms

def DistinctKeysItems : List (RpcValue ν) → Prop
  | [] => True
  | x :: xs => x.DistinctKeys ∧ DistinctKeysItems xs

def DistinctKeysMembers : List (Option String × RpcValue ν) → Prop
  | [] => True
  | (_, x) :: ms => x.DistinctKeys ∧ DistinctKeysMembers ms
end

mutual
/-- The value as `json.dumps` sees it, tuples as lists. -/
def json? : RpcValue ν → Option (Json ν)
  | .none => some .null
  | .bool b => some (.bool b)
  | .num n => some (.num n)
  | .str s => some (.str s)
  | .bytes _ | .other _ => Option.none
  | .list xs | .tuple xs => (jsonItems? xs).map .arr
  | .dict ms => (jsonMembers? ms).map .obj

def jsonItems? : List (RpcValue ν) → Option (List (Json ν))
  | [] => some []
  | x :: xs => do return (← x.json?) :: (← jsonItems? xs)

def jsonMembers? : List (Option String × RpcValue ν) → Option (List (String × Json ν))
  | [] => some []
  | (k, x) :: ms => do return (← k, ← x.json?) :: (← jsonMembers? ms)
end

mutual
/-- The value that a text gives. -/
def ofJson : Json ν → RpcValue ν
  | .null => .none
  | .bool b => .bool b
  | .num n => .num n
  | .str s => .str s
  | .arr xs => .list (ofJsonItems xs)
  | .obj ms => .dict (ofJsonMembers ms)

def ofJsonItems : List (Json ν) → List (RpcValue ν)
  | [] => []
  | x :: xs => ofJson x :: ofJsonItems xs

def ofJsonMembers : List (String × Json ν) → List (Option String × RpcValue ν)
  | [] => []
  | (k, x) :: ms => (some k, ofJson x) :: ofJsonMembers ms
end

end RpcValue

/-- A dict to be sent. -/
structure Payload (ν : Type) where
  members : List (Option String × RpcValue ν)
  distinct : (RpcValue.dict members).DistinctKeys

/-! ## The check of a tree -/

/-- The checks that `visit` begins with. -/
def enter (depth itemCount : Nat) : Except String Nat :=
  if depth > RPC_MAX_DEPTH then .error "AutoCAD RPC JSON tree is too deep"
  else if itemCount + 1 > RPC_MAX_ITEMS then .error "AutoCAD RPC JSON tree has too many items"
  else .ok (itemCount + 1)

def visitStr (s : String) (depth itemCount : Nat) : Except String Nat := do
  let itemCount ← enter depth itemCount
  if s.utf8ByteSize > RPC_MAX_STRING_BYTES then .error "AutoCAD RPC JSON string is too large" else .ok itemCount

mutual
/-- `visit`, from an item count to the next -/
def visit (numbers : Numbers ν) : RpcValue ν → Nat → Nat → Except String Nat
  | .none, depth, itemCount | .bool _, depth, itemCount => enter depth itemCount
  | .num n, depth, itemCount => do
      let itemCount ← enter depth itemCount
      if ¬ numbers.isfinite n then .error "AutoCAD RPC JSON contains a non-finite number" else .ok itemCount
  | .str s, depth, itemCount => visitStr s depth itemCount
  | .bytes data, depth, itemCount => do
      let itemCount ← enter depth itemCount
      if data.length > RPC_MAX_BYTES_VALUE then .error "AutoCAD RPC byte value is too large" else .ok itemCount
  | .list xs, depth, itemCount | .tuple xs, depth, itemCount => do
      let itemCount ← enter depth itemCount
      if xs.length > RPC_MAX_ITEMS then .error "AutoCAD RPC JSON collection is too large"
      else visitItems numbers xs (depth + 1) itemCount
  | .dict ms, depth, itemCount => do
      let itemCount ← enter depth itemCount
      if ms.length > RPC_MAX_ITEMS then .error "AutoCAD RPC JSON object is too large"
      else visitMembers numbers ms (depth + 1) itemCount
  | .other typeName, depth, itemCount => do
      let _ ← enter depth itemCount
      .error ("Unsupported AutoCAD RPC JSON value: " ++ typeName)

def visitItems (numbers : Numbers ν) : List (RpcValue ν) → Nat → Nat → Except String Nat
  | [], _, itemCount => .ok itemCount
  | x :: xs, depth, itemCount => do
      let itemCount ← visit numbers x depth itemCount
      visitItems numbers xs depth itemCount

def visitMembers (numbers : Numbers ν) : List (Option String × RpcValue ν) → Nat → Nat → Except String Nat
  | [], _, itemCount => .ok itemCount
  | (Option.none, _) :: _, _, _ => .error "AutoCAD RPC JSON object keys must be strings"
  | (some k, x) :: ms, depth, itemCount => do
      let itemCount ← visitStr k depth itemCount
      let itemCount ← visit numbers x depth itemCount
      visitMembers numbers ms depth itemCount
end

def validateRpcTree (numbers : Numbers ν) (value : RpcValue ν) : Except String Nat := visit numbers value 0 0

/-! ## The two sides -/

def startupMessage (numbers : Numbers ν) (payload : Payload ν) : Except String (List Char) := do
  let _ ← validateRpcTree numbers (.dict payload.members)
  match (RpcValue.dict payload.members).json? with
  | none => .error "Object is not JSON serializable"
  | some json =>
      match json.sortKeys.traverse numbers.repr with
      | none => .error "Exceeds the limit for integer string conversion"
      | some value =>
          if value.renderAscii.length > STARTUP_IPC_MAX_BYTES then .error "AutoCAD startup IPC message is too large"
          else .ok value.renderAscii

/-- Of the members of one key, the last one's value counts. -/
def dictOf {α : Type} (ms : List (String × α)) : List (String × α) := ms.foldl (fun l m => Assoc.set l m.1 m.2) []

mutual
/-- The value with its objects as dicts. -/
def dicts : Json ν → Json ν
  | .null => .null
  | .bool b => .bool b
  | .num n => .num n
  | .str s => .str s
  | .arr xs => .arr (dictsItems xs)
  | .obj ms => .obj (dictOf (dictsMembers ms))

def dictsItems : List (Json ν) → List (Json ν)
  | [] => []
  | x :: xs => dicts x :: dictsItems xs

def dictsMembers : List (String × Json ν) → List (String × Json ν)
  | [] => []
  | (k, x) :: ms => (k, dicts x) :: dictsMembers ms
end

/-- `json.loads` -/
def loads (numbers : Numbers ν) (text : List Char) : Option (Json ν) :=
  ((Json.readAscii text).bind (Json.traverse numbers.parse)).map dicts

def invalidResponse : String := "Isolated AutoCAD startup helper returned no valid response"

/-- `_read_startup_message`, on the bytes that were sent -/
def readStartupMessage (numbers : Numbers ν) (raw : List Char) : Except String (List (String × Json ν)) :=
  if raw.length > STARTUP_IPC_MAX_BYTES then .error invalidResponse
  else if raw.length > RPC_MAX_BYTES_VALUE then .error invalidResponse
  else
    match loads numbers raw with
    | none => .error invalidResponse
    | some payload =>
        match validateRpcTree numbers (.ofJson payload), payload with
        | .ok _, .obj ms => .ok ms
        | _, _ => .error invalidResponse

/-! ## What fits -/

section
variable {numbers : Numbers ν}

def StrFits (s : String) (depth : Nat) : Prop := depth ≤ RPC_MAX_DEPTH ∧ s.utf8ByteSize ≤ RPC_MAX_STRING_BYTES

namespace RpcValue

mutual
/-- The value at a depth is within the limits but for the number of its items. -/
def Fits (numbers : Numbers ν) : RpcValue ν → Nat → Prop
  | .none, depth | .bool _, depth => depth ≤ RPC_MAX_DEPTH
  | .num n, depth => depth ≤ RPC_MAX_DEPTH ∧ numbers.isfinite n
  | .str s, depth => StrFits s depth
  | .bytes data, depth => depth ≤ RPC_MAX_DEPTH ∧ data.length ≤ RPC_MAX_BYTES_VALUE
  | .list xs, depth | .tuple xs, depth =>
      depth ≤ RPC_MAX_DEPTH ∧ xs.length ≤ RPC_MAX_ITEMS ∧ FitsItems numbers xs (depth + 1)
  | .dict ms, depth => depth ≤ RPC_MAX_DEPTH ∧ ms.length ≤ RPC_MAX_ITEMS ∧ FitsMembers numbers ms (depth + 1)
  | .other _, _ => False

def FitsItems (numbers : Numbers ν) : List (RpcValue ν) → Nat → Prop
  | [], _ => True
  | x :: xs, depth => Fits numbers x depth ∧ FitsItems numbers xs depth

def FitsMembers (numbers : Numbers ν) : List (Option String × RpcValue ν) → Nat → Prop
  | [], _ => True
  | (Option.none, _) :: _, _ => False
  | (some k, x) :: ms, depth => StrFits k depth ∧ Fits numbers x depth ∧ FitsMembers numbers ms depth
end

mutual
/-- The number of items that `visit` counts, keys included. -/
def items : RpcValue ν → Nat
  | .none | .bool _ | .num _ | .str _ | .bytes _ | .other _ => 1
  | .list xs | .tuple xs => 1 + itemsItems xs
  | .dict ms => 1 + itemsMembers ms

def itemsItems : List (RpcValue ν) → Nat
  | [] => 0
  | x :: xs => items x + itemsItems xs

def itemsMembers : List (Option String × RpcValue ν) → Nat
  | [] => 0
  | (_, x) :: ms => 1 + items x + itemsMembers ms
end

end RpcValue

theorem enter_eq_ok {depth c c' : Nat} :
    enter depth c = .ok c' ↔ depth ≤ RPC_MAX_DEPTH ∧ c + 1 ≤ RPC_MAX_ITEMS ∧ c' = c + 1 := by
  unfold enter
  split_ifs with hdepth hcount
  · exact iff_of_false (fun h => nomatch h) (fun h => by omega)
  · exact iff_of_false (fun h => nomatch h) (fun h => by omega)
  · exact ⟨fun h => ⟨by omega, by omega, (Except.ok.inj h).symm⟩, fun h => congrArg Except.ok h.2.2.symm⟩

/-- A value of one item is checked by itself. -/
theorem leaf_eq_ok {depth c c' : Nat} {p q : Prop} [Decidable p] {e : String} (hpq : ¬ p ↔ q) :
    (enter depth c >>= fun c₁ => if p then .error e else .ok c₁) = .ok c' ↔
      (depth ≤ RPC_MAX_DEPTH ∧ q) ∧ c + 1 ≤ RPC_MAX_ITEMS ∧ c' = c + 1 := by
  simp only [bind_eq_ok, enter_eq_ok]
  constructor
  · rintro ⟨c₁, ⟨hdepth, hcount, rfl⟩, h⟩
    split_ifs at h with hp
    exact ⟨⟨hdepth, hpq.mp hp⟩, hcount, (Except.ok.inj h).symm⟩
  · rintro ⟨⟨hdepth, hq⟩, hcount, rfl⟩
    exact ⟨c + 1, ⟨hdepth, hcount, rfl⟩, if_neg (hpq.mpr hq)⟩

theorem visitStr_eq_ok {s : String} {depth c c' : Nat} :
    visitStr s depth c = .ok c' ↔ StrFits s depth ∧ c + 1 ≤ RPC_MAX_ITEMS ∧ c' = c + 1 :=
  leaf_eq_ok not_lt

/-- A container fits if its contents do. -/
theorem container_eq_ok {depth length n c c' : Nat} {fits : Prop} {e : String} {inner : Nat → Except String Nat}
    (h : ∀ c c', c ≤ RPC_MAX_ITEMS → (inner c = .ok c' ↔ fits ∧ c + n ≤ RPC_MAX_ITEMS ∧ c' = c + n)) :
    (enter depth c >>= fun c₁ => if length > RPC_MAX_ITEMS then .error e else inner c₁) = .ok c' ↔
      (depth ≤ RPC_MAX_DEPTH ∧ length ≤ RPC_MAX_ITEMS ∧ fits) ∧ c + (1 + n) ≤ RPC_MAX_ITEMS ∧ c' = c + (1 + n) := by
  simp only [bind_eq_ok, enter_eq_ok]
  constructor
  · rintro ⟨c₁, ⟨hdepth, hcount, rfl⟩, hinner⟩
    split_ifs at hinner with hlength
    obtain ⟨hfits, hmax, rfl⟩ := (h _ _ hcount).mp hinner
    exact ⟨⟨hdepth, by omega, hfits⟩, by omega, by omega⟩
  · rintro ⟨⟨hdepth, hlength, hfits⟩, hmax, rfl⟩
    refine ⟨c + 1, ⟨hdepth, by omega, rfl⟩, ?_⟩
    rw [if_neg (by omega)]
    exact (h _ _ (by omega)).mpr ⟨hfits, by omega, by omega⟩

open RpcValue

mutual
theorem visit_eq_ok : (v : RpcValue ν) → {depth c c' : Nat} →
    (visit numbers v depth c = .ok c' ↔ Fits numbers v depth ∧ c + v.items ≤ RPC_MAX_ITEMS ∧ c' = c + v.items)
  | .none, _, _, _ => enter_eq_ok
  | .bool _, _, _, _ => enter_eq_ok
  | .num _, _, _, _ => leaf_eq_ok not_not
  | .str _, _, _, _ => visitStr_eq_ok
  | .bytes _, _, _, _ => leaf_eq_ok not_lt
  | .list xs, depth, _, _ => container_eq_ok fun _ _ hc => visitItems_eq_ok xs hc
  | .tuple xs, depth, _, _ => container_eq_ok fun _ _ hc => visitItems_eq_ok xs hc
  | .dict ms, depth, _, _ => container_eq_ok fun _ _ hc => visitMembers_eq_ok ms hc
  | .other _, _, _, _ => by
      simp only [visit, bind_eq_ok, Fits, false_and, iff_false, not_exists, not_and]
      exact fun _ _ h => nomatch h

theorem visitItems_eq_ok : (xs : List (RpcValue ν)) → {depth c c' : Nat} → c ≤ RPC_MAX_ITEMS →
    (visitItems numbers xs depth c = .ok c' ↔
      FitsItems numbers xs depth ∧ c + itemsItems xs ≤ RPC_MAX_ITEMS ∧ c' = c + itemsItems xs)
  | [], _, _, _, hc => by
      simp only [visitItems, FitsItems, itemsItems, Except.ok.injEq, true_and, Nat.add_zero, hc]
      exact eq_comm
  | x :: xs, depth, c, c', hc => by
      simp only [visitItems, bind_eq_ok, visit_eq_ok x, FitsItems, itemsItems]
      constructor
      · rintro ⟨c₁, ⟨hx, hmax, rfl⟩, h⟩
        obtain ⟨hxs, hmax', rfl⟩ := (visitItems_eq_ok xs hmax).mp h
        exact ⟨⟨hx, hxs⟩, by omega, by omega⟩
      · rintro ⟨⟨hx, hxs⟩, hmax, rfl⟩
        exact ⟨c + x.items, ⟨hx, by omega, rfl⟩, (visitItems_eq_ok xs (by omega)).mpr ⟨hxs, by omega, by omega⟩⟩

theorem visitMembers_eq_ok : (ms : List (Option String × RpcValue ν)) → {depth c c' : Nat} → c ≤ RPC_MAX_ITEMS →
    (visitMembers numbers ms depth c = .ok c' ↔
      FitsMembers numbers ms depth ∧ c + itemsMembers ms ≤ RPC_MAX_ITEMS ∧ c' = c + itemsMembers ms)
  | [], _, _, _, hc => by
      simp only [visitMembers, FitsMembers, itemsMembers, Except.ok.injEq, true_and, Nat.add_zero, hc]
      exact eq_comm
  | (Option.none, _) :: _, _, _, _, _ => by
      simp only [visitMembers, FitsMembers, false_and, iff_false]
      exact fun h => nomatch h
  | (some k, x) :: ms, depth, c, c', hc => by
      simp only [visitMembers, bind_eq_ok, visitStr_eq_ok, visit_eq_ok x, FitsMembers, itemsMembers]
      constructor
      · rintro ⟨c₁, ⟨hk, hkmax, rfl⟩, c₂, ⟨hx, hmax, rfl⟩, h⟩
        obtain ⟨hms, hmax', rfl⟩ := (visitMembers_eq_ok ms hmax).mp h
        exact ⟨⟨hk, hx, hms⟩, by omega, by omega⟩
      · rintro ⟨⟨hk, hx, hms⟩, hmax, rfl⟩
        exact ⟨c + 1, ⟨hk, by omega, rfl⟩, c + 1 + x.items, ⟨hx, by omega, rfl⟩,
          (visitMembers_eq_ok ms (by omega)).mpr ⟨hms, by omega, by omega⟩⟩
end

theorem validateRpcTree_iff (numbers : Numbers ν) (v : RpcValue ν) :
    (∃ c, validateRpcTree numbers v = .ok c) ↔ Fits numbers v 0 ∧ v.items ≤ RPC_MAX_ITEMS := by
  simp only [validateRpcTree, visit_eq_ok, Nat.zero_add, exists_and_left, exists_eq, and_true]

/-! ## What the text keeps -/

namespace RpcValue

mutual
/-- The length of the text of a value, with numbers of these lengths. -/
def width (number : ν → Nat) : RpcValue ν → Nat
  | .none | .bool true => 4
  | .bool false => 5
  | .num n => number n
  | .str s => stringWidth s
  | .bytes _ | .other _ => 0
  | .list xs | .tuple xs => 2 + (xs.length - 1) + widthItems number xs
  | .dict ms => 2 + (ms.length - 1) + widthMembers number ms

def widthItems (number : ν → Nat) : List (RpcValue ν) → Nat
  | [] => 0
  | x :: xs => width number x + widthItems number xs

def widthMembers (number : ν → Nat) : List (Option String × RpcValue ν) → Nat
  | [] => 0
  | (k, x) :: ms => stringWidth (k.getD "") + 1 + width number x + widthMembers number ms
end

theorem fitsMembers_iff {ms : List (Option String × RpcValue ν)} {depth : Nat} :
    FitsMembers numbers ms depth ↔ ∀ m ∈ ms, ∃ k, m.1 = some k ∧ StrFits k depth ∧ Fits numbers m.2 depth := by
  induction ms with
  | nil => simp [FitsMembers]
  | cons m ms ih =>
      obtain ⟨_ | k, x⟩ := m
      · simp [FitsMembers]
      · simp [FitsMembers, ih, and_assoc]

theorem distinctKeysMembers_iff {ms : List (Option String × RpcValue ν)} :
    DistinctKeysMembers ms ↔ ∀ m ∈ ms, m.2.DistinctKeys := by
  induction ms with
  | nil => simp [DistinctKeysMembers]
  | cons m ms ih => simp [DistinctKeysMembers, ih]

theorem itemsMembers_eq_sum (ms : List (Option String × RpcValue ν)) :
    itemsMembers ms = (ms.map fun m => 1 + m.2.items).sum := by
  induction ms with
  | nil => rfl
  | cons m ms ih => rw [itemsMembers, ih, List.map_cons, List.sum_cons]

theorem widthMembers_eq_sum (number : ν → Nat) (ms : List (Option String × RpcValue ν)) :
    widthMembers number ms = (ms.map fun m => stringWidth (m.1.getD "") + 1 + m.2.width number).sum := by
  induction ms with
  | nil => rfl
  | cons m ms ih => rw [widthMembers, ih, List.map_cons, List.sum_cons]

theorem ofJsonMembers_eq_map (ms : List (String × Json ν)) :
    ofJsonMembers ms = ms.map fun m => (some m.1, ofJson m.2) := by
  induction ms with
  | nil => rfl
  | cons m ms ih => rw [ofJsonMembers, ih, List.map_cons]

theorem length_ofJsonItems (xs : List (Json ν)) : (ofJsonItems xs).length = xs.length := by
  induction xs with
  | nil => rfl
  | cons x xs ih => rw [ofJsonItems, List.length_cons, ih, List.length_cons]

end RpcValue

theorem json_distinctKeysMembers_iff {ms : List (String × Json ν)} :
    Json.DistinctKeysMembers ms ↔ ∀ m ∈ ms, m.2.DistinctKeys := by
  induction ms with
  | nil => simp [Json.DistinctKeysMembers]
  | cons m ms ih => simp [Json.DistinctKeysMembers, ih]

/-- What the checks and the length of a text depend on is the same in a value that was sent and in what was read. -/
structure Carries (numbers : Numbers ν) (p : RpcValue ν) (v : Json ν) : Prop where
  distinct : p.DistinctKeys → v.DistinctKeys
  fits : ∀ depth, Fits numbers p depth → Fits numbers (.ofJson v) depth
  items : (RpcValue.ofJson v).items = p.items
  width : ∀ number, v.width number = p.width number

theorem carries_items {xs : List (RpcValue ν)} {vs : List (Json ν)} (h : List.Forall₂ (Carries numbers) xs vs) :
    (DistinctKeysItems xs → Json.DistinctKeysItems vs) ∧
      (∀ depth, FitsItems numbers xs depth → FitsItems numbers (ofJsonItems vs) depth) ∧
      itemsItems (ofJsonItems vs) = itemsItems xs ∧
      ∀ number, Json.widthItems number vs = RpcValue.widthItems number xs := by
  induction h with
  | nil => exact ⟨id, fun _ => id, rfl, fun _ => rfl⟩
  | cons hx _ ih =>
      obtain ⟨hdistinct, hfits, hitems, hwidth⟩ := ih
      refine ⟨And.imp hx.distinct hdistinct, fun depth => And.imp (hx.fits depth) (hfits depth), ?_, fun number => ?_⟩
      · rw [ofJsonItems, itemsItems, itemsItems, hx.items, hitems]
      · rw [Json.widthItems, RpcValue.widthItems, hx.width, hwidth]

theorem carries_list {xs : List (RpcValue ν)} {vs : List (Json ν)} (h : List.Forall₂ (Carries numbers) xs vs) :
    Carries numbers (.list xs) (.arr vs) := by
  obtain ⟨hdistinct, hfits, hitems, hwidth⟩ := carries_items h
  refine ⟨hdistinct, fun depth h' => ?_, ?_, fun number => ?_⟩
  · obtain ⟨hdepth, hlength, h'⟩ := h'
    refine ⟨hdepth, ?_, hfits _ h'⟩
    rw [length_ofJsonItems, ← h.length_eq]
    exact hlength
  · rw [RpcValue.ofJson, RpcValue.items, RpcValue.items, hitems]
  · rw [Json.width, RpcValue.width, hwidth, h.length_eq]

theorem carries_tuple {xs : List (RpcValue ν)} {v : Json ν} (h : Carries numbers (.list xs) v) :
    Carries numbers (.tuple xs) v := ⟨h.distinct, h.fits, h.items, h.width⟩

/-- A member of an object carries a member of a dict. -/
def CarriesMember (numbers : Numbers ν) (m : Option String × RpcValue ν) (n : String × Json ν) : Prop :=
  m.1 = some n.1 ∧ Carries numbers m.2 n.2

theorem map_eq_of_forall₂ {α β γ : Type} {R : α → β → Prop} {f : α → γ} {g : β → γ} {l : List α} {l' : List β}
    (h : List.Forall₂ R l l') (hfg : ∀ a b, R a b → g b = f a) : l'.map g = l.map f := by
  induction h with
  | nil => rfl
  | cons hab _ ih => rw [List.map_cons, List.map_cons, hfg _ _ hab, ih]

/-- The members of an object may stand in any order. -/
theorem carries_dict {ms : List (Option String × RpcValue ν)} {ns ns' : List (String × Json ν)}
    (h : List.Forall₂ (CarriesMember numbers) ms ns) (hperm : ns'.Perm ns) :
    Carries numbers (.dict ms) (.obj ns') := by
  have hkeys : (ns.map Prod.fst).map some = ms.map Prod.fst :=
    List.map_map.trans (map_eq_of_forall₂ h fun _ _ hmn => hmn.1.symm)
  have hmem {n} (hn : n ∈ ns') : ∃ m ∈ ms, CarriesMember numbers m n :=
    mem_of_forall₂ h (hperm.mem_iff.mp hn)
  refine ⟨fun hdistinct => ?_, fun depth hfits => ?_, ?_, fun number => ?_⟩
  · rw [DistinctKeys, ← hkeys, distinctKeysMembers_iff] at hdistinct
    rw [Json.DistinctKeys, json_distinctKeysMembers_iff]
    refine ⟨(hperm.map Prod.fst).nodup_iff.mpr hdistinct.1.of_map, fun n hn => ?_⟩
    obtain ⟨m, hm, -, hcarries⟩ := hmem hn
    exact hcarries.distinct (hdistinct.2 m hm)
  · rw [Fits, fitsMembers_iff] at hfits
    rw [ofJson, Fits, fitsMembers_iff, ofJsonMembers_eq_map, List.length_map, hperm.length_eq, ← h.length_eq]
    refine ⟨hfits.1, hfits.2.1, fun _ hmem' => ?_⟩
    obtain ⟨n, hn, rfl⟩ := List.mem_map.mp hmem'
    obtain ⟨m, hm, hkey, hcarries⟩ := hmem hn
    obtain ⟨k, hk, hstr, hvalue⟩ := hfits.2.2 m hm
    obtain rfl := Option.some.inj (hk.symm.trans hkey)
    exact ⟨_, rfl, hstr, hcarries.fits _ hvalue⟩
  · have hsum : (ns.map fun n => 1 + (ofJson n.2).items) = ms.map fun m => 1 + m.2.items :=
      map_eq_of_forall₂ h fun m n hmn => by rw [hmn.2.items]
    rw [ofJson, RpcValue.items, RpcValue.items, itemsMembers_eq_sum, itemsMembers_eq_sum, ← hsum, ofJsonMembers_eq_map,
      List.map_map, (hperm.map _).sum_nat]
    rfl
  · have hsum : (ns.map fun n => stringWidth n.1 + 1 + n.2.width number) =
        ms.map fun m => stringWidth (m.1.getD "") + 1 + m.2.width number :=
      map_eq_of_forall₂ h fun m n hmn => by rw [hmn.1, hmn.2.width, Option.getD_some]
    rw [Json.width, RpcValue.width, Json.widthMembers_eq_sum, RpcValue.widthMembers_eq_sum, ← hsum, (hperm.map _).sum_nat,
      hperm.length_eq, h.length_eq]

mutual
theorem carries_sortKeys : {p : RpcValue ν} → {v : Json ν} → p.json? = some v → Carries numbers p v.sortKeys
  | .none, _, h => by obtain rfl := Option.some.inj h; exact ⟨id, fun _ => id, rfl, fun _ => rfl⟩
  | .bool b, _, h => by
      obtain rfl := Option.some.inj h
      exact ⟨id, fun _ => id, rfl, fun _ => by cases b <;> rfl⟩
  | .num _, _, h => by obtain rfl := Option.some.inj h; exact ⟨id, fun _ => id, rfl, fun _ => rfl⟩
  | .str _, _, h => by obtain rfl := Option.some.inj h; exact ⟨id, fun _ => id, rfl, fun _ => rfl⟩
  | .bytes _, _, h => nomatch h
  | .other _, _, h => nomatch h
  | .list _, _, h => by
      obtain ⟨vs, hvs, rfl⟩ := Option.map_eq_some_iff.mp h
      exact carries_list (carries_sortKeysItems hvs)
  | .tuple _, _, h => by
      obtain ⟨vs, hvs, rfl⟩ := Option.map_eq_some_iff.mp h
      exact carries_tuple (carries_list (carries_sortKeysItems hvs))
  | .dict _, _, h => by
      obtain ⟨ns, hns, rfl⟩ := Option.map_eq_some_iff.mp h
      exact carries_dict (carries_sortKeysMembers hns) (sortOn_perm _ _)

theorem carries_sortKeysItems : {xs : List (RpcValue ν)} → {vs : List (Json ν)} → jsonItems? xs = some vs →
    List.Forall₂ (Carries numbers) xs (Json.sortKeysItems vs)
  | [], _, h => by obtain rfl := Option.some.inj h; exact .nil
  | _ :: _, _, h => by
      simp only [jsonItems?, Option.bind_eq_bind, Option.bind_eq_some_iff, Option.pure_def, Option.some.injEq] at h
      obtain ⟨v, hv, vs, hvs, rfl⟩ := h
      exact .cons (carries_sortKeys hv) (carries_sortKeysItems hvs)

theorem carries_sortKeysMembers : {ms : List (Option String × RpcValue ν)} → {ns : List (String × Json ν)} →
    jsonMembers? ms = some ns → List.Forall₂ (CarriesMember numbers) ms (Json.sortKeysMembers ns)
  | [], _, h => by obtain rfl := Option.some.inj h; exact .nil
  | (k, _) :: _, _, h => by
      simp only [jsonMembers?, Option.bind_eq_bind, Option.bind_eq_some_iff, Option.pure_def, Option.some.injEq] at h
      obtain ⟨key, hkey, v, hv, ns, hns, rfl⟩ := h
      exact .cons ⟨hkey, carries_sortKeys hv⟩ (carries_sortKeysMembers hns)
end

/-! ## Reading -/

theorem dictOf_of_nodup {α : Type} {ms : List (String × α)} (h : (ms.map Prod.fst).Nodup) : dictOf ms = ms := by
  have hfold (l : List (String × α)) : ((l ++ ms).map Prod.fst).Nodup →
      ms.foldl (fun l m => Assoc.set l m.1 m.2) l = l ++ ms := by
    clear h
    intro h
    induction ms generalizing l with
    | nil => rw [List.foldl_nil, List.append_nil]
    | cons m ms ih =>
        have hnone : l.lookup m.1 = Option.none := by
          rw [List.lookup_eq_none_iff]
          intro n hn
          rw [List.map_append, List.nodup_append] at h
          have hne := h.2.2 _ (List.mem_map_of_mem hn) m.1 (by simp)
          exact bne_iff_ne.mpr (Ne.symm hne)
        have happend : l ++ m :: ms = l ++ [(m.1, m.2)] ++ ms := by simp
        rw [List.foldl_cons, Assoc.set_of_lookup_none hnone, ih _ (happend ▸ h), happend]
  exact hfold [] h

mutual
/-- A text that names no key twice is read as it stands. -/
theorem dicts_eq_self : {v : Json ν} → v.DistinctKeys → dicts v = v
  | .null, _ => rfl
  | .bool _, _ => rfl
  | .num _, _ => rfl
  | .str _, _ => rfl
  | .arr _, h => by rw [dicts, dictsItems_eq_self h]
  | .obj _, h => by rw [dicts, dictsMembers_eq_self h.2, dictOf_of_nodup h.1]

theorem dictsItems_eq_self : {xs : List (Json ν)} → Json.DistinctKeysItems xs → dictsItems xs = xs
  | [], _ => rfl
  | _ :: _, h => by rw [dictsItems, dicts_eq_self h.1, dictsItems_eq_self h.2]

theorem dictsMembers_eq_self : {ms : List (String × Json ν)} → Json.DistinctKeysMembers ms → dictsMembers ms = ms
  | [], _ => rfl
  | (_, _) :: _, h => by rw [dictsMembers, dicts_eq_self h.1, dictsMembers_eq_self h.2]
end

/-! ## From one side to the other -/

/-- The value that was sent and the one that was read are equal, tuples read as lists and the entries of a dict in any
order. -/
def EqualTo (p : RpcValue ν) (v : Json ν) : Prop := ∃ json, p.json? = some json ∧ json.sortKeys = v.sortKeys

/-- The length of the compact text of a payload. -/
def Payload.textLength (numbers : Numbers ν) (payload : Payload ν) : Nat :=
  (RpcValue.dict payload.members).width fun n => ((numbers.repr n).map fun text => text.text.length).getD 0

theorem startupMessage_eq_ok {payload : Payload ν} {text : List Char} (h : startupMessage numbers payload = .ok text) :
    ∃ json value, (RpcValue.dict payload.members).json? = some json ∧
      json.sortKeys.traverse numbers.repr = some value ∧ text = value.renderAscii ∧
      text.length ≤ STARTUP_IPC_MAX_BYTES ∧ Fits numbers (.dict payload.members) 0 ∧
      (RpcValue.dict payload.members).items ≤ RPC_MAX_ITEMS := by
  rw [startupMessage, bind_eq_ok] at h
  obtain ⟨count, hcount, h⟩ := h
  obtain ⟨hfits, hitems⟩ := (validateRpcTree_iff _ _).mp ⟨count, hcount⟩
  cases hjson : (RpcValue.dict payload.members).json? with
  | none => rw [hjson] at h; cases h
  | some json =>
      cases hvalue : json.sortKeys.traverse numbers.repr with
      | none => simp only [hjson, hvalue, reduceCtorEq] at h
      | some value =>
          simp only [hjson, hvalue] at h
          split_ifs at h with hlength
          obtain rfl := Except.ok.inj h
          exact ⟨json, value, rfl, hvalue, rfl, by omega, hfits, hitems⟩

theorem length_startupMessage {payload : Payload ν} {text : List Char} (h : startupMessage numbers payload = .ok text) :
    text.length = payload.textLength numbers := by
  obtain ⟨json, value, hjson, hvalue, rfl, -⟩ := startupMessage_eq_ok h
  have hcarries : Carries numbers (.dict payload.members) json.sortKeys := carries_sortKeys hjson
  rw [Json.length_renderAscii, Json.width_traverse hvalue, hcarries.width]
  rfl

/-- A message that is not too long for the receiver is read as it was sent. -/
theorem readStartupMessage_ok {payload : Payload ν} {text : List Char} (h : startupMessage numbers payload = .ok text)
    (hlength : text.length ≤ RPC_MAX_BYTES_VALUE) :
    ∃ ms, readStartupMessage numbers text = .ok ms ∧ EqualTo (.dict payload.members) (.obj ms) := by
  obtain ⟨json, value, hjson, hvalue, rfl, hmax, hfits, hitems⟩ := startupMessage_eq_ok h
  have hcarries : Carries numbers (.dict payload.members) json.sortKeys := carries_sortKeys hjson
  have hloads : loads numbers value.renderAscii = some json.sortKeys := by
    rw [loads, Json.readAscii_renderAscii, Option.bind_some, Json.traverse_inv numbers.parse_repr hvalue, Option.map_some,
      dicts_eq_self (hcarries.distinct payload.distinct)]
  obtain ⟨count, hcount⟩ := (validateRpcTree_iff numbers (.ofJson json.sortKeys)).mpr
    ⟨hcarries.fits 0 hfits, hcarries.items.trans_le hitems⟩
  obtain ⟨ns, -, rfl⟩ := Option.map_eq_some_iff.mp hjson
  refine ⟨sortOn codePoints (Json.sortKeysMembers ns), ?_, _, hjson, ?_⟩
  · rw [readStartupMessage, if_neg (by omega), if_neg (by omega), hloads]
    simp only [hcount]
    rfl
  · exact (Json.sortKeys_sortKeys _).symm

/-- A message that the sender accepts is read as it was sent exactly when its text is at most 256 KiB. -/
theorem readStartupMessage_startupMessage_iff {payload : Payload ν} {text : List Char}
    (h : startupMessage numbers payload = .ok text) :
    (∃ ms, readStartupMessage numbers text = .ok ms ∧ EqualTo (.dict payload.members) (.obj ms)) ↔
      payload.textLength numbers ≤ RPC_MAX_BYTES_VALUE := by
  rw [← length_startupMessage h]
  constructor
  · rintro ⟨ms, hread, -⟩
    by_contra hlength
    rw [readStartupMessage, if_pos (not_le.mp hlength), ite_self] at hread
    cases hread
  · exact readStartupMessage_ok h

end

/-- Numbers that are known by their texts. -/
def texts : Numbers NumberText where
  isfinite _ := true
  repr := some
  parse := some
  parse_repr _ _ h := h.symm

theorem reply_distinct : (.dict [(some "value", .tuple [.none, .str "Ø"]), (some "stage", .str "result")] :
    RpcValue NumberText).DistinctKeys := by
  simp [RpcValue.DistinctKeys, RpcValue.DistinctKeysMembers, RpcValue.DistinctKeysItems]

/-- A reply with a tuple and a character beyond ASCII. -/
def reply : Payload NumberText := ⟨[(some "value", .tuple [.none, .str "Ø"]), (some "stage", .str "result")], reply_distinct⟩

theorem readStartupMessage_startupMessage_iff_reply :
    (∃ ms, readStartupMessage texts "\x7b\"stage\":\"result\",\"value\":[null,\"\\u00d8\"]\x7d".toList = .ok ms ∧
      EqualTo (.dict reply.members) (.obj ms)) ↔ reply.textLength texts ≤ RPC_MAX_BYTES_VALUE :=
  readStartupMessage_startupMessage_iff (by decide)

/-! ## A message that only the sender accepts -/

def longText : String := String.ofList (List.replicate (32 * 1024) 'x')

theorem utf8ByteSize_replicate (n : Nat) : (String.ofList (List.replicate n 'x')).utf8ByteSize = n := by
  induction n with
  | zero => rfl
  | succ n ih =>
      rw [List.replicate_succ, ← List.singleton_append, String.ofList_append, String.utf8ByteSize_append, ih]
      have hone : (String.ofList ['x']).utf8ByteSize = 1 := rfl
      omega

theorem stringWidth_replicate (n : Nat) : stringWidth (String.ofList (List.replicate n 'x')) = 2 + n := by
  have hwidth : charWidth 'x' = 1 := rfl
  rw [stringWidth, String.toList_ofList, List.map_replicate, hwidth, List.sum_replicate_nat, Nat.mul_one]

theorem stringWidth_longText : stringWidth longText = 2 + 32 * 1024 := stringWidth_replicate _

theorem startupMessage_ok {numbers : Numbers ν} {payload : Payload ν} {json : Json ν} {value : Json NumberText}
    (hfits : RpcValue.Fits numbers (.dict payload.members) 0)
    (hitems : (RpcValue.dict payload.members).items ≤ RPC_MAX_ITEMS)
    (hjson : (RpcValue.dict payload.members).json? = some json)
    (hvalue : json.sortKeys.traverse numbers.repr = some value)
    (hlength : payload.textLength numbers ≤ STARTUP_IPC_MAX_BYTES) :
    startupMessage numbers payload = .ok value.renderAscii := by
  obtain ⟨count, hcount⟩ := (validateRpcTree_iff numbers (.dict payload.members)).mpr ⟨hfits, hitems⟩
  have hwidth : value.renderAscii.length = payload.textLength numbers := by
    have hcarries : Carries numbers (.dict payload.members) json.sortKeys := carries_sortKeys hjson
    rw [Json.length_renderAscii, Json.width_traverse hvalue, hcarries.width]
    rfl
  rw [startupMessage, hcount, ok_bind, hjson]
  simp only [hvalue]
  exact if_neg (by omega)

theorem nineTimes_distinct (s : String) :
    (.dict [(some "value", .list (List.replicate 9 (.str s)))] : RpcValue NumberText).DistinctKeys := by
  simp [RpcValue.DistinctKeys, RpcValue.DistinctKeysMembers, RpcValue.DistinctKeysItems, List.replicate]

/-- A reply with a list of nine equal strings. -/
def nineTimes (s : String) : Payload NumberText :=
  ⟨[(some "value", .list (List.replicate 9 (.str s)))], nineTimes_distinct s⟩

theorem widthItems_replicate (number : ν → Nat) (n : Nat) (x : RpcValue ν) :
    RpcValue.widthItems number (List.replicate n x) = n * x.width number := by
  induction n with
  | zero => rw [List.replicate_zero, RpcValue.widthItems, Nat.zero_mul]
  | succ n ih => rw [List.replicate_succ, RpcValue.widthItems, ih, Nat.succ_mul, Nat.add_comm]

theorem textLength_nineTimes (s : String) : (nineTimes s).textLength texts = 20 + 9 * stringWidth s := by
  have hkey : stringWidth ((some "value").getD "") = 7 := rfl
  rw [Payload.textLength, nineTimes, RpcValue.width, RpcValue.widthMembers, RpcValue.widthMembers, RpcValue.width,
    widthItems_replicate, RpcValue.width, hkey, List.length_replicate, List.length_singleton]
  omega

theorem nineTimes_sent {s : String} (hsize : s.utf8ByteSize ≤ RPC_MAX_STRING_BYTES)
    (hlength : (nineTimes s).textLength texts ≤ STARTUP_IPC_MAX_BYTES) :
    ∃ text, startupMessage texts (nineTimes s) = .ok text := by
  have hstr : StrFits s 2 := ⟨by decide, hsize⟩
  have hkey : StrFits "value" 1 := ⟨by decide, by decide⟩
  have hone : 1 ≤ RPC_MAX_ITEMS := by decide
  have hnine : 9 ≤ RPC_MAX_ITEMS := by decide
  refine ⟨_, startupMessage_ok ⟨by decide, hone, hkey, ⟨by decide, hnine, ?_⟩, trivial⟩ ?_ rfl rfl hlength⟩
  · exact ⟨hstr, hstr, hstr, hstr, hstr, hstr, hstr, hstr, hstr, trivial⟩
  · exact (show 12 ≤ RPC_MAX_ITEMS by decide)

theorem textLength_longText :
    RPC_MAX_BYTES_VALUE < (nineTimes longText).textLength texts ∧
      (nineTimes longText).textLength texts ≤ STARTUP_IPC_MAX_BYTES := by
  rw [textLength_nineTimes, stringWidth_longText]
  decide

theorem longText_refused : ∃ text,
    startupMessage texts (nineTimes longText) = .ok text ∧ readStartupMessage texts text = .error invalidResponse := by
  obtain ⟨text, htext⟩ := nineTimes_sent (utf8ByteSize_replicate _).le textLength_longText.2
  have hlength : text.length > RPC_MAX_BYTES_VALUE := by
    rw [length_startupMessage htext]
    exact textLength_longText.1
  refine ⟨text, htext, ?_⟩
  rw [readStartupMessage, if_pos hlength, ite_self]

end CadHarness.Com
