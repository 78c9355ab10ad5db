import CadHarness.Domain.Errors

/-!
# What a redacted payload shows

`redact_payload` over payloads of Python: dictionaries with any keys, lists and tuples. What stands under a sensitive
key has no influence on the result. A path is replaced where it stands under its key itself, and is kept where the key
holds a list of paths.
-/

/-!
## Redaction

`cad_harness.security.redaction`: what of a payload is kept for the audit. How Python lowers the case of a
key, and the pseudonym of a path, are parameters.
-/

namespace CadHarness.Security
open CadHarness.Lib CadHarness.Domain

/-- Keys whose values are replaced wholesale, at any depth. -/
def sensitiveKeys : List String :=
  ["approval_token", "approval_secret", "secret", "password", "token", "prompt", "raw_prompt", "api_key",
    "geometry", "geometries", "coordinates", "vertices", "points"]

/-- Keys holding filesystem paths. -/
def pathKeys : List String :=
  ["path", "full_path", "target_path", "file_path", "artifact_ref", "document_path", "display_name", "filename"]

def redacted : String := "[redacted]"

/-- A JSON value of Python: no `dict` has a key twice. -/
structure Payload where
  json : Value
  distinct : json.DistinctKeys

variable (lower redactPath : String → String)

/-- What stays under a key of a value, where `kept` stays of it elsewhere. -/
def redactUnder (key : String) (x kept : Value) : Value :=
  if lower key ∈ sensitiveKeys then .str redacted
  else if lower key ∈ pathKeys then
    match x with
    | .str s => .str (redactPath s)
    | _ => kept
  else kept

mutual
def redactPayload : Value → Value
  | .null => .null
  | .bool b => .bool b
  | .num n => .num n
  | .str s => .str s
  | .arr xs => .arr (redactItems xs)
  | .obj ms => .obj (redactMembers ms)

def redactItems : List Value → List Value
  | [] => []
  | x :: xs => redactPayload x :: redactItems xs

def redactMembers : List (String × Value) → List (String × Value)
  | [] => []
  | (key, x) :: ms => (key, redactUnder lower redactPath key x (redactPayload x)) :: redactMembers ms
end

theorem redactMembers_keys (ms : List (String × Value)) :
    (redactMembers lower redactPath ms).map Prod.fst = ms.map Prod.fst := by
  induction ms with
  | nil => rfl
  | cons m ms ih => simp [redactMembers, ih]

theorem redactUnder_distinctKeys (key : String) (x : Value) {kept : Value} (h : kept.DistinctKeys) :
    (redactUnder lower redactPath key x kept).DistinctKeys := by
  unfold redactUnder
  split
  · trivial
  · split
    · cases x with
      | str s => trivial
      | _ => exact h
    · exact h

mutual
theorem redactPayload_distinctKeys : (x : Value) → x.DistinctKeys →
    (redactPayload lower redactPath x).DistinctKeys
  | .null, _ => trivial
  | .bool _, _ => trivial
  | .num _, _ => trivial
  | .str _, _ => trivial
  | .arr xs, h => redactItems_distinctKeys xs h
  | .obj ms, h => by
      have hkeys : ((redactMembers lower redactPath ms).map Prod.fst).Nodup := by
        rw [redactMembers_keys]
        exact h.1
      exact ⟨hkeys, redactMembers_distinctKeys ms h.2⟩

theorem redactItems_distinctKeys : (xs : List Value) → Json.DistinctKeysItems xs →
    Json.DistinctKeysItems (redactItems lower redactPath xs)
  | [], _ => trivial
  | x :: xs, h => ⟨redactPayload_distinctKeys x h.1, redactItems_distinctKeys xs h.2⟩

theorem redactMembers_distinctKeys : (ms : List (String × Value)) → Json.DistinctKeysMembers ms →
    Json.DistinctKeysMembers (redactMembers lower redactPath ms)
  | [], _ => trivial
  | (_, x) :: ms, h =>
      ⟨redactUnder_distinctKeys lower redactPath _ x (redactPayload_distinctKeys x h.1),
        redactMembers_distinctKeys ms h.2⟩
end

def Payload.redact (payload : Payload) : Payload :=
  ⟨redactPayload lower redactPath payload.json, redactPayload_distinctKeys lower redactPath _ payload.distinct⟩

end CadHarness.Security

namespace CadHarness.Security
open CadHarness.Domain CadHarness.Lib

/-- A payload of Python. -/
inductive PyValue (Key Leaf : Type) where
  | str (s : String)
  | path (p : String)
  | leaf (x : Leaf)
  | list (xs : List (PyValue Key Leaf))
  | tuple (xs : List (PyValue Key Leaf))
  | dict (ms : List (Key × PyValue Key Leaf))

variable {Key Leaf : Type} (text : Key → String) (lower redactPath : String → String) (redactPaths : Bool)

/-- The entry of a key whose value is `kept` elsewhere. -/
def redactEntry (key : Key) (x kept : PyValue Key Leaf) : PyValue Key Leaf :=
  if lower (text key) ∈ sensitiveKeys then .str redacted
  else if redactPaths = true ∧ lower (text key) ∈ pathKeys then
    match x with
    | .str s => .str (redactPath s)
    | .path p => .str (redactPath p)
    | _ => kept
  else kept

mutual
/-- `redact_payload` -/
def redact : PyValue Key Leaf → PyValue Key Leaf
  | .str s => .str s
  | .path p => .path p
  | .leaf x => .leaf x
  | .list xs => .list (redactAll xs)
  | .tuple xs => .list (redactAll xs)
  | .dict ms => .dict (redactEntries ms)

def redactAll : List (PyValue Key Leaf) → List (PyValue Key Leaf)
  | [] => []
  | x :: xs => redact x :: redactAll xs

def redactEntries : List (Key × PyValue Key Leaf) → List (Key × PyValue Key Leaf)
  | [] => []
  | (key, x) :: ms => (key, redactEntry text lower redactPath redactPaths key x (redact x)) :: redactEntries ms
end

/-! ## Payloads of JSON -/

mutual
def ofJson : Value → PyValue String Value
  | .null => .leaf .null
  | .bool b => .leaf (.bool b)
  | .num n => .leaf (.num n)
  | .str s => .str s
  | .arr xs => .list (ofItems xs)
  | .obj ms => .dict (ofMembers ms)

def ofItems : List Value → List (PyValue String Value)
  | [] => []
  | x :: xs => ofJson x :: ofItems xs

def ofMembers : List (String × Value) → List (String × PyValue String Value)
  | [] => []
  | (key, x) :: ms => (key, ofJson x) :: ofMembers ms
end

theorem ofJson_redactUnder (key : String) (x kept : Value) :
    ofJson (redactUnder lower redactPath key x kept) =
      redactEntry id lower redactPath true key (ofJson x) (ofJson kept) := by
  by_cases hsensitive : lower key ∈ sensitiveKeys
  · simp [redactUnder, redactEntry, hsensitive, ofJson]
  · by_cases hpath : lower key ∈ pathKeys
    · cases x <;> simp [redactUnder, redactEntry, hsensitive, hpath, ofJson]
    · simp [redactUnder, redactEntry, hsensitive, hpath]

mutual
/-- The redaction of JSON payloads is that of Python payloads. -/
theorem redact_ofJson : (x : Value) →
    redact id lower redactPath true (ofJson x) = ofJson (redactPayload lower redactPath x)
  | .null => rfl
  | .bool _ => rfl
  | .num _ => rfl
  | .str _ => rfl
  | .arr xs => congrArg PyValue.list (redactAll_ofItems xs)
  | .obj ms => congrArg PyValue.dict (redactEntries_ofMembers ms)

theorem redactAll_ofItems : (xs : List Value) →
    redactAll id lower redactPath true (ofItems xs) = ofItems (redactItems lower redactPath xs)
  | [] => rfl
  | x :: xs => by
      rw [ofItems, redactAll, redactItems, ofItems, redact_ofJson x, redactAll_ofItems xs]

theorem redactEntries_ofMembers : (ms : List (String × Value)) →
    redactEntries id lower redactPath true (ofMembers ms) = ofMembers (redactMembers lower redactPath ms)
  | [] => rfl
  | (key, x) :: ms => by
      rw [ofMembers, redactEntries, redactMembers, ofMembers, redact_ofJson x, redactEntries_ofMembers ms,
        ofJson_redactUnder]
end

/-! ## Sensitive keys -/

mutual
/-- Two payloads differ at most under sensitive keys. -/
inductive Agree : PyValue Key Leaf → PyValue Key Leaf → Prop
  | str (s : String) : Agree (.str s) (.str s)
  | path (p : String) : Agree (.path p) (.path p)
  | leaf (x : Leaf) : Agree (.leaf x) (.leaf x)
  | list {xs ys : List (PyValue Key Leaf)} : AgreeAll xs ys → Agree (.list xs) (.list ys)
  | tuple {xs ys : List (PyValue Key Leaf)} : AgreeAll xs ys → Agree (.tuple xs) (.tuple ys)
  | dict {ms ns : List (Key × PyValue Key Leaf)} : AgreeEntries ms ns → Agree (.dict ms) (.dict ns)

inductive AgreeAll : List (PyValue Key Leaf) → List (PyValue Key Leaf) → Prop
  | nil : AgreeAll [] []
  | cons {x y : PyValue Key Leaf} {xs ys : List (PyValue Key Leaf)} :
      Agree x y → AgreeAll xs ys → AgreeAll (x :: xs) (y :: ys)

inductive AgreeEntries : List (Key × PyValue Key Leaf) → List (Key × PyValue Key Leaf) → Prop
  | nil : AgreeEntries [] []
  | sensitive {key : Key} {x y : PyValue Key Leaf} {ms ns : List (Key × PyValue Key Leaf)} :
      lower (text key) ∈ sensitiveKeys → AgreeEntries ms ns → AgreeEntries ((key, x) :: ms) ((key, y) :: ns)
  | cons {key : Key} {x y : PyValue Key Leaf} {ms ns : List (Key × PyValue Key Leaf)} :
      Agree x y → AgreeEntries ms ns → AgreeEntries ((key, x) :: ms) ((key, y) :: ns)
end

section

variable {text lower redactPath redactPaths}

theorem redactEntry_sensitive {key : Key} (hkey : lower (text key) ∈ sensitiveKeys) (x kept : PyValue Key Leaf) :
    redactEntry text lower redactPath redactPaths key x kept = .str redacted := by
  unfold redactEntry
  rw [if_pos hkey]

theorem redactEntry_agree {key : Key} {x y : PyValue Key Leaf} (h : Agree text lower x y)
    (hkept : redact text lower redactPath redactPaths x = redact text lower redactPath redactPaths y) :
    redactEntry text lower redactPath redactPaths key x (redact text lower redactPath redactPaths x) =
      redactEntry text lower redactPath redactPaths key y (redact text lower redactPath redactPaths y) := by
  rw [hkept]
  cases h <;> rfl

mutual
theorem redact_agree {x y : PyValue Key Leaf} : Agree text lower x y →
    redact text lower redactPath redactPaths x = redact text lower redactPath redactPaths y
  | .str _ => rfl
  | .path _ => rfl
  | .leaf _ => rfl
  | .list h => congrArg PyValue.list (redactAll_agree h)
  | .tuple h => congrArg PyValue.list (redactAll_agree h)
  | .dict h => congrArg PyValue.dict (redactEntries_agree h)

theorem redactAll_agree {xs ys : List (PyValue Key Leaf)} : AgreeAll text lower xs ys →
    redactAll text lower redactPath redactPaths xs = redactAll text lower redactPath redactPaths ys
  | .nil => rfl
  | .cons h hrest => by rw [redactAll, redactAll, redact_agree h, redactAll_agree hrest]

theorem redactEntries_agree {ms ns : List (Key × PyValue Key Leaf)} : AgreeEntries text lower ms ns →
    redactEntries text lower redactPath redactPaths ms = redactEntries text lower redactPath redactPaths ns
  | .nil => rfl
  | .sensitive hkey hrest => by
      rw [redactEntries, redactEntries, redactEntries_agree hrest, redactEntry_sensitive hkey, redactEntry_sensitive hkey]
  | .cons h hrest => by
      rw [redactEntries, redactEntries, redactEntries_agree hrest, redactEntry_agree h (redact_agree h)]
end

end

/-! ## Positions -/

namespace PyValue

def children : PyValue Key Leaf → List (PyValue Key Leaf)
  | .list xs | .tuple xs => xs
  | .dict ms => ms.map Prod.snd
  | _ => []

/-- The value at a position: the place among the children on each level. -/
def at? (x : PyValue Key Leaf) : List Nat → Option (PyValue Key Leaf)
  | [] => some x
  | i :: pos => x.children[i]? >>= fun child => child.at? pos

theorem at?_cons (x : PyValue Key Leaf) (i : Nat) (pos : List Nat) :
    x.at? (i :: pos) = x.children[i]?.bind fun child => child.at? pos := rfl

end PyValue

/-- Where a value stands: under a path key itself, in a list or tuple under one, or elsewhere. -/
inductive Context where
  | elsewhere
  | underPath
  | listed
  deriving DecidableEq

/-- The elements of a list or tuple. -/
def Context.inside : Context → Context
  | elsewhere => elsewhere
  | underPath | listed => listed

/-- The value of a key. -/
def keyContext (key : Key) : Context := if lower (text key) ∈ pathKeys then .underPath else .elsewhere

/-- A string at a position of a payload, and where it stands. -/
inductive Stands : Context → PyValue Key Leaf → List Nat → Context → String → Prop
  | here (context : Context) (s : String) : Stands context (.str s) [] context s
  | list {context standing : Context} {xs : List (PyValue Key Leaf)} {i : Nat} {x : PyValue Key Leaf} {pos : List Nat}
      {s : String} : xs[i]? = some x → Stands context.inside x pos standing s →
      Stands context (.list xs) (i :: pos) standing s
  | tuple {context standing : Context} {xs : List (PyValue Key Leaf)} {i : Nat} {x : PyValue Key Leaf} {pos : List Nat}
      {s : String} : xs[i]? = some x → Stands context.inside x pos standing s →
      Stands context (.tuple xs) (i :: pos) standing s
  | dict {context standing : Context} {ms : List (Key × PyValue Key Leaf)} {i : Nat} {key : Key} {x : PyValue Key Leaf}
      {pos : List Nat} {s : String} : ms[i]? = some (key, x) → Stands (keyContext text lower key) x pos standing s →
      Stands context (.dict ms) (i :: pos) standing s

/-- No key on the way to a position is sensitive. -/
inductive Shown : PyValue Key Leaf → List Nat → Prop
  | here (x : PyValue Key Leaf) : Shown x []
  | list {xs : List (PyValue Key Leaf)} {i : Nat} {x : PyValue Key Leaf} {pos : List Nat} :
      xs[i]? = some x → Shown x pos → Shown (.list xs) (i :: pos)
  | tuple {xs : List (PyValue Key Leaf)} {i : Nat} {x : PyValue Key Leaf} {pos : List Nat} :
      xs[i]? = some x → Shown x pos → Shown (.tuple xs) (i :: pos)
  | dict {ms : List (Key × PyValue Key Leaf)} {i : Nat} {key : Key} {x : PyValue Key Leaf} {pos : List Nat} :
      ms[i]? = some (key, x) → lower (text key) ∉ sensitiveKeys → Shown x pos → Shown (.dict ms) (i :: pos)

section

variable {text lower redactPath redactPaths} {context standing : Context} {x : PyValue Key Leaf} {pos : List Nat} {s : String}

theorem redactAll_eq (xs : List (PyValue Key Leaf)) :
    redactAll text lower redactPath redactPaths xs = xs.map (redact text lower redactPath redactPaths) := by
  induction xs with
  | nil => rfl
  | cons x xs ih => rw [redactAll, ih, List.map_cons]

theorem redactEntries_eq (ms : List (Key × PyValue Key Leaf)) :
    redactEntries text lower redactPath redactPaths ms = ms.map fun entry =>
      (entry.1, redactEntry text lower redactPath redactPaths entry.1 entry.2
        (redact text lower redactPath redactPaths entry.2)) := by
  induction ms with
  | nil => rfl
  | cons entry ms ih => rw [redactEntries, ih, List.map_cons]

theorem at?_redact_list {xs : List (PyValue Key Leaf)} {i : Nat} (h : xs[i]? = some x) (pos : List Nat) :
    (redact text lower redactPath redactPaths (.list xs)).at? (i :: pos) =
      (redact text lower redactPath redactPaths x).at? pos := by
  simp [redact, redactAll_eq, PyValue.at?_cons, PyValue.children, h]

theorem at?_redact_tuple {xs : List (PyValue Key Leaf)} {i : Nat} (h : xs[i]? = some x) (pos : List Nat) :
    (redact text lower redactPath redactPaths (.tuple xs)).at? (i :: pos) =
      (redact text lower redactPath redactPaths x).at? pos := at?_redact_list h pos

theorem at?_redact_dict {ms : List (Key × PyValue Key Leaf)} {i : Nat} {key : Key} (h : ms[i]? = some (key, x))
    (pos : List Nat) : (redact text lower redactPath redactPaths (.dict ms)).at? (i :: pos) =
      (redactEntry text lower redactPath redactPaths key x (redact text lower redactPath redactPaths x)).at? pos := by
  simp [redact, redactEntries_eq, PyValue.at?_cons, PyValue.children, h]

/-- A string is below a scalar nowhere. -/
theorem at?_str (i : Nat) : (PyValue.str s : PyValue Key Leaf).at? (i :: pos) = none := rfl

/-- No path key is sensitive. -/
theorem not_sensitive_of_path {key : String} (h : key ∈ pathKeys) : key ∉ sensitiveKeys := by
  simp only [pathKeys, List.mem_cons, List.not_mem_nil, or_false] at h
  rcases h with rfl | rfl | rfl | rfl | rfl | rfl | rfl | rfl <;> decide

/-- What is under a path key itself is a string, or is kept as elsewhere. -/
theorem redactEntry_underPath {key : Key} (hkey : lower (text key) ∈ pathKeys) (kept : PyValue Key Leaf) :
    redactEntry text lower redactPath true key x kept =
      match x with
      | .str s => .str (redactPath s)
      | .path p => .str (redactPath p)
      | _ => kept := by
  unfold redactEntry
  rw [if_neg (not_sensitive_of_path hkey), if_pos ⟨rfl, hkey⟩]

theorem redactEntry_elsewhere {key : Key} (hsensitive : lower (text key) ∉ sensitiveKeys)
    (hkey : lower (text key) ∉ pathKeys) (kept : PyValue Key Leaf) :
    redactEntry text lower redactPath redactPaths key x kept = kept := by
  unfold redactEntry
  rw [if_neg hsensitive, if_neg fun h => hkey h.2]

/-- A string that is shown is replaced by its pseudonym where it stands under a path key itself, and is kept in lists
and tuples. -/
theorem at?_of_shown (h : Stands text lower context x pos standing s) (hshown : Shown text lower x pos)
    (hcontext : context = .underPath → pos ≠ []) : (redact text lower redactPath true x).at? pos =
      some (.str (if standing = .underPath then redactPath s else s)) := by
  induction h with
  | here context s =>
      rw [if_neg fun heq => hcontext heq rfl]
      rfl
  | @list context standing xs i x pos s hx h ih =>
      cases hshown with
      | list hx' hshown =>
          obtain rfl := Option.some.inj (hx.symm.trans hx')
          rw [at?_redact_list hx]
          exact ih hshown fun heq => by cases context <;> cases heq
  | @tuple context standing xs i x pos s hx h ih =>
      cases hshown with
      | tuple hx' hshown =>
          obtain rfl := Option.some.inj (hx.symm.trans hx')
          rw [at?_redact_tuple hx]
          exact ih hshown fun heq => by cases context <;> cases heq
  | @dict context standing ms i key x pos s hx h ih =>
      cases hshown with
      | dict hx' hsensitive hshown =>
          obtain ⟨rfl, rfl⟩ := Prod.mk.inj (Option.some.inj (hx.symm.trans hx'))
          rw [at?_redact_dict hx]
          by_cases hkey : lower (text key) ∈ pathKeys
          · rw [redactEntry_underPath hkey]
            rw [keyContext, if_pos hkey] at h ih
            cases h with
            | here => rfl
            | list hy h => exact ih hshown fun _ => List.cons_ne_nil _ _
            | tuple hy h => exact ih hshown fun _ => List.cons_ne_nil _ _
            | dict hy h => exact ih hshown fun _ => List.cons_ne_nil _ _
          · rw [redactEntry_elsewhere hsensitive hkey]
            rw [keyContext, if_neg hkey] at ih
            exact ih hshown fun heq => by cases heq

/-- Nothing is at the position of a path that is not shown. -/
theorem at?_of_hidden (h : Stands text lower context x pos standing s) (hshown : ¬ Shown text lower x pos)
    (hstanding : standing ≠ .elsewhere) : (redact text lower redactPath true x).at? pos = none := by
  induction h with
  | here context s => exact absurd (.here _) hshown
  | @list context standing xs i x pos s hx h ih =>
      rw [at?_redact_list hx]
      exact ih (fun hin => hshown (.list hx hin)) hstanding
  | @tuple context standing xs i x pos s hx h ih =>
      rw [at?_redact_tuple hx]
      exact ih (fun hin => hshown (.tuple hx hin)) hstanding
  | @dict context standing ms i key x pos s hx h ih =>
      rw [at?_redact_dict hx]
      by_cases hsensitive : lower (text key) ∈ sensitiveKeys
      · rw [redactEntry_sensitive hsensitive]
        cases h with
        | here =>
            rw [keyContext, if_neg fun hkey => not_sensitive_of_path hkey hsensitive] at hstanding
            exact absurd rfl hstanding
        | list | tuple | dict => exact at?_str _
      · have hin : ¬ Shown text lower x pos := fun hin => hshown (.dict hx hsensitive hin)
        have hkept := ih hin hstanding
        by_cases hkey : lower (text key) ∈ pathKeys
        · rw [redactEntry_underPath hkey]
          cases h with
          | here => exact absurd (.here _) hin
          | list | tuple | dict => exact hkept
        · rwa [redactEntry_elsewhere hsensitive hkey]

end

/-! ## Main result -/

/-- The strings that stand under path keys, themselves or in lists and tuples, are nowhere in the result but as
pseudonyms. -/
def PathsReplaced (payload : PyValue Key Leaf) : Prop :=
  ∀ pos standing s, Stands text lower .elsewhere payload pos standing s → standing ≠ .elsewhere →
    ∀ shown, (redact text lower redactPath true payload).at? pos = some shown → shown = .str (redactPath s)

/-- What is under sensitive keys never matters. Paths are replaced exactly where no list or tuple under a path key that
is shown holds a string, but for those that are their own pseudonyms. -/
theorem redact_noninterference_iff (payload : PyValue Key Leaf) :
    ((∀ other redactPaths, Agree text lower payload other →
        redact text lower redactPath redactPaths payload = redact text lower redactPath redactPaths other) ∧
      PathsReplaced text lower redactPath payload) ↔
    ∀ pos s, Stands text lower .elsewhere payload pos .listed s → Shown text lower payload pos → redactPath s = s := by
  constructor
  · intro hpaths pos s hstands hshown
    have hkept : (redact text lower redactPath true payload).at? pos = _ :=
      at?_of_shown hstands hshown fun h => by cases h
    rw [if_neg (by decide)] at hkept
    have heq := hpaths.2 pos .listed s hstands (by decide) _ hkept
    exact (PyValue.str.inj heq).symm
  · intro hlisted
    refine ⟨fun other redactPaths hagree => redact_agree hagree, fun pos standing s hstands hstanding shown hat => ?_⟩
    by_cases hshown : Shown text lower payload pos
    · rw [at?_of_shown hstands hshown fun h => by cases h] at hat
      obtain rfl := Option.some.inj hat
      cases standing with
      | elsewhere => exact absurd rfl hstanding
      | underPath => rfl
      | listed => exact congrArg PyValue.str (hlisted pos s hstands hshown).symm
    · rw [at?_of_hidden hstands hshown hstanding] at hat
      cases hat

/-- A list of paths under a path key. -/
def drawings : PyValue String Unit := .dict [("path", .list [.str "C:/Customers/Acme/part.dwg"])]

/-- The path of the list is shown. -/
theorem drawings_shown : ¬ PathsReplaced id id (fun _ => "path:5d41402abc4b2a76.dwg") drawings := by
  intro hpaths
  have hstands : Stands id id .elsewhere drawings [0, 0] .listed "C:/Customers/Acme/part.dwg" :=
    .dict rfl (.list rfl (.here _ _))
  have heq := hpaths [0, 0] .listed _ hstands (by decide) (.str "C:/Customers/Acme/part.dwg") rfl
  exact absurd (PyValue.str.inj heq) (by decide)

end CadHarness.Security
