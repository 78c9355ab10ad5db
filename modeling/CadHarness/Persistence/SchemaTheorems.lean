import CadHarness.Lib.Fallible
import CadHarness.Lib.SqlText
import CadHarness.Persistence.SchemaMigration
import Mathlib.Data.Bool.AllAny

/-!
# What canonical definitions tell apart

Table definitions with one canonical form differ in the order of their definitions, in white space and in the backfill
default only, as long as no quoted token of one of them holds white space.
-/

namespace CadHarness.Persistence
open CadHarness.Lib CadHarness.Lib.Fallible
open CadHarness.Lib.Python (isSpace)
open CadHarness.Lib.Sql

/-! ## Words -/

theorem plainBlanks_isSpace : PlainBlanks isSpace := by
  intro c hc hmem
  simp only [List.mem_cons, List.not_mem_nil, or_false] at hmem
  rcases hmem with rfl | rfl | rfl | rfl | rfl | rfl | rfl | rfl <;> revert hc <;> decide

theorem isSpace_space : isSpace ' ' = true := by decide

theorem splitFrom_eq (word text : List Char) : splitFrom word text = wordsFrom isSpace word text := by
  induction text generalizing word with
  | nil => rfl
  | cons c text ih => simp only [splitFrom, wordsFrom, ih]

theorem split_eq (text : List Char) : split text = words isSpace text := splitFrom_eq [] text

theorem normalizeText_eq (text : List Char) : normalizeText text = [' '].intercalate (words isSpace text) := by
  rw [normalizeText, split_eq]

@[simp] theorem words_normalizeText (text : List Char) : words isSpace (normalizeText text) = words isSpace text := by
  rw [normalizeText_eq, words_intercalate isSpace_space fun _ => mem_words]

theorem normalizeText_eq_iff {text other : List Char} :
    normalizeText text = normalizeText other ↔ words isSpace text = words isSpace other := by
  refine ⟨fun h => ?_, fun h => by rw [normalizeText_eq, normalizeText_eq, h]⟩
  rw [← words_normalizeText text, h, words_normalizeText]

/-! ## The backfill default -/

/-- `DEFAULT 'legacy'` in any case, as two words -/
def IsClause (keyword value : List Char) : Prop :=
  keyword.map Char.toLower = "default".toList ∧ value.map Char.toLower = "'legacy'".toList

instance (keyword value : List Char) : Decidable (IsClause keyword value) := inferInstanceAs (Decidable (_ ∧ _))

/-- The words without the clauses among them. -/
def dropClauses : List (List Char) → List (List Char)
  | [] => []
  | [word] => [word]
  | keyword :: value :: rest =>
      if IsClause keyword value then dropClauses rest else keyword :: dropClauses (value :: rest)

/-- The words of a text that follow another word. -/
def following (ws : List (List Char)) : List Char := ws.flatMap (' ' :: ·)

theorem intercalate_cons_following (w : List Char) (ws : List (List Char)) :
    [' '].intercalate (w :: ws) = w ++ following ws := by
  induction ws generalizing w with
  | nil => simp [following]
  | cons v ws ih =>
      rw [List.intercalate_cons_cons, ih v, following, following, List.flatMap_cons]
      simp

theorem substituteFrom_succ (skip : Nat) (c : Char) (text : List Char) :
    substituteFrom (skip + 1) (c :: text) = substituteFrom skip text := rfl

theorem substituteFrom_zero (c : Char) (text : List Char) :
    substituteFrom 0 (c :: text) =
      match legacyDefaultLength (c :: text) with
      | some length => substituteFrom (length - 1) text
      | none => c :: substituteFrom 0 text := by
  rfl

theorem substituteFrom_drop (skip : Nat) (text : List Char) :
    substituteFrom skip text = substituteFrom 0 (text.drop skip) := by
  induction skip generalizing text with
  | zero => rfl
  | succ skip ih =>
      cases text with
      | nil => rfl
      | cons c text => rw [substituteFrom_succ, ih, List.drop_succ_cons]

theorem legacyDefaultLength_of_not_isSpace {c : Char} (hc : isSpace c = false) (text : List Char) :
    legacyDefaultLength (c :: text) = none := by
  have hspaces : afterSpaces (c :: text) = none := by
    rw [afterSpaces, hc]
    rfl
  rw [legacyDefaultLength, hspaces]
  rfl

theorem substituteFrom_word {word : List Char} (h : ∀ c ∈ word, isSpace c = false) (rest : List Char) :
    substituteFrom 0 (word ++ rest) = word ++ substituteFrom 0 rest := by
  induction word with
  | nil => rfl
  | cons c word ih =>
      rw [List.cons_append, substituteFrom_zero, legacyDefaultLength_of_not_isSpace (h c List.mem_cons_self),
        List.cons_append]
      exact congrArg (c :: ·) (ih fun d hd => h d (List.mem_cons_of_mem c hd))

theorem atEndOfWord_following (ws : List (List Char)) : atEndOfWord (following ws) = true := by
  cases ws with
  | nil => rfl
  | cons w ws => rw [following, List.flatMap_cons, List.cons_append, atEndOfWord, isSpace_space]

theorem mem_take_of_lt {α : Type} {l : List α} {a : α} {rest : List α} {n : Nat} (h : l.length < n) :
    a ∈ (l ++ a :: rest).take n := by
  rw [List.take_append, List.mem_append]
  obtain ⟨k, hk⟩ : ∃ k, n - l.length = k + 1 := ⟨n - l.length - 1, by omega⟩
  rw [hk, List.take_succ_cons]
  exact .inr List.mem_cons_self

theorem toLower_eq_or (c : Char) : c.toLower = c ∨ 65 ≤ c.toNat ∧ c.toNat ≤ 90 ∧ c.toLower.toNat = c.toNat + 32 := by
  unfold Char.toLower
  split
  · next h =>
      obtain ⟨hlow, hhigh⟩ := h
      have hlow : 65 ≤ c.val.toNat := hlow
      have hhigh : c.val.toNat ≤ 90 := hhigh
      refine .inr ⟨hlow, hhigh, ?_⟩
      have hsum : (c.val + 32).toNat = c.val.toNat + 32 := by
        rw [UInt32.toNat_add]
        have hbound : c.val.toNat + 32 < 2 ^ 32 := by omega
        exact Nat.mod_eq_of_lt hbound
      exact hsum
  · exact .inl rfl

theorem toLower_of_isSpace {c : Char} (hc : isSpace c = true) : c.toLower = c := by
  rcases toLower_eq_or c with h | ⟨hlow, hhigh, -⟩
  · exact h
  · simp only [isSpace, Bool.or_eq_true, Bool.and_eq_true, decide_eq_true_eq] at hc
    omega

/-- A word in front of a text that goes on with a space or ends. -/
theorem afterWord_append {word text rest after : List Char} (htext : ∀ c ∈ text, isSpace c = false)
    (hword : ∀ c ∈ word.map Char.toLower, isSpace c = false) (hrest : atEndOfWord rest = true) :
    afterWord word (text ++ rest) = some after ∧ atEndOfWord after = true ↔
      text.map Char.toLower = word.map Char.toLower ∧ after = rest := by
  unfold afterWord
  constructor
  · rintro ⟨h, hafter⟩
    split at h
    · next htake =>
        cases h
        rcases lt_trichotomy text.length word.length with hlt | heq | hgt
        · cases rest with
          | nil =>
              have hlength := congrArg List.length htake
              simp only [List.append_nil, List.length_map, List.length_take] at hlength
              omega
          | cons c rest =>
              have hmem := List.mem_map_of_mem (f := Char.toLower) (@mem_take_of_lt _ _ c rest _ hlt)
              rw [htake, toLower_of_isSpace hrest] at hmem
              have hc : isSpace c = true := hrest
              rw [hword c hmem] at hc
              cases hc
        · rw [← heq, List.take_left] at htake
          rw [← heq, List.drop_left]
          exact ⟨htake, rfl⟩
        · rw [List.drop_append_of_le_length hgt.le] at hafter
          cases hdrop : text.drop word.length with
          | nil =>
              rw [List.drop_eq_nil_iff] at hdrop
              omega
          | cons c after =>
              have hmem : c ∈ text := List.mem_of_mem_drop (hdrop ▸ List.mem_cons_self)
              rw [hdrop, List.cons_append, atEndOfWord, htext c hmem] at hafter
              cases hafter
    · cases h
  · rintro ⟨htext, rfl⟩
    have hlength : text.length = word.length := by simpa using congrArg List.length htext
    rw [← hlength, List.take_left, List.drop_left, if_pos htext]
    exact ⟨rfl, hrest⟩

theorem afterSpaces_following {w : List Char} (hw : w ≠ [] ∧ ∀ c ∈ w, isSpace c = false) (ws : List (List Char)) :
    afterSpaces (following (w :: ws)) = some (w ++ following ws) := by
  obtain ⟨c, w, rfl⟩ := List.exists_cons_of_ne_nil hw.1
  have hc : isSpace c = false := hw.2 c List.mem_cons_self
  rw [following, List.flatMap_cons, List.cons_append, afterSpaces, if_pos isSpace_space, List.cons_append,
    List.dropWhile_cons, hc]
  rfl

theorem legacyDefaultLength_eq_some {text : List Char} {n : Nat} : legacyDefaultLength text = some n ↔
    ∃ keyword spaces value rest, afterSpaces text = some keyword ∧ afterWord "DEFAULT".toList keyword = some spaces ∧
      afterSpaces spaces = some value ∧ afterWord "'legacy'".toList value = some rest ∧ atEndOfWord rest = true ∧
      text.length - rest.length = n := by
  unfold legacyDefaultLength
  simp only [Option.bind_eq_bind, Option.bind_eq_some_iff]
  constructor
  · rintro ⟨keyword, hkeyword, spaces, hspaces, value, hvalue, rest, hrest, h⟩
    split at h
    · next hend =>
        cases h
        exact ⟨keyword, spaces, value, rest, hkeyword, hspaces, hvalue, hrest, hend, rfl⟩
    · cases h
  · rintro ⟨keyword, spaces, value, rest, hkeyword, hspaces, hvalue, hrest, hend, rfl⟩
    refine ⟨keyword, hkeyword, spaces, hspaces, value, hvalue, rest, hrest, ?_⟩
    rw [if_pos hend]

theorem atEndOfWord_of_afterSpaces {text value : List Char} (h : afterSpaces text = some value) :
    atEndOfWord text = true := by
  cases text with
  | nil => cases h
  | cons c text =>
      rw [afterSpaces] at h
      split at h
      · next hc => exact hc
      · cases h

theorem lower_keyword : ∀ c ∈ "DEFAULT".toList.map Char.toLower, isSpace c = false :=
  List.all_iff_forall_prop.mp (by decide)

theorem lower_literal : ∀ c ∈ "'legacy'".toList.map Char.toLower, isSpace c = false :=
  List.all_iff_forall_prop.mp (by decide)

theorem length_of_map_toLower {word other : List Char} (h : word.map Char.toLower = other) :
    word.length = other.length := by
  rw [← h, List.length_map]

/-- Where a match begins, a clause stands. -/
theorem legacyDefaultLength_following {k l : List Char} {ws : List (List Char)}
    (hk : k ≠ [] ∧ ∀ c ∈ k, isSpace c = false) (hl : l ≠ [] ∧ ∀ c ∈ l, isSpace c = false) {n : Nat} :
    legacyDefaultLength (following (k :: l :: ws)) = some n ↔ IsClause k l ∧ n = k.length + l.length + 2 := by
  have hlength : (following (k :: l :: ws)).length - (following ws).length = k.length + l.length + 2 := by
    simp only [following, List.flatMap_cons, List.length_append, List.length_cons]
    omega
  rw [legacyDefaultLength_eq_some]
  constructor
  · rintro ⟨keyword, spaces, value, rest, hkeyword, hspaces, hvalue, hrest, hend, rfl⟩
    rw [afterSpaces_following hk, Option.some.injEq] at hkeyword
    subst hkeyword
    obtain ⟨hklower, rfl⟩ := (afterWord_append hk.2 lower_keyword (atEndOfWord_following (l :: ws))).mp
      ⟨hspaces, atEndOfWord_of_afterSpaces hvalue⟩
    rw [afterSpaces_following hl, Option.some.injEq] at hvalue
    subst hvalue
    obtain ⟨hllower, rfl⟩ := (afterWord_append hl.2 lower_literal (atEndOfWord_following ws)).mp ⟨hrest, hend⟩
    exact ⟨⟨hklower, hllower⟩, hlength⟩
  · rintro ⟨⟨hklower, hllower⟩, rfl⟩
    refine ⟨k ++ following (l :: ws), following (l :: ws), l ++ following ws, following ws, afterSpaces_following hk _,
      ?_, afterSpaces_following hl _, ?_, atEndOfWord_following ws, hlength⟩
    · exact ((afterWord_append hk.2 lower_keyword (atEndOfWord_following (l :: ws))).mpr ⟨hklower, rfl⟩).1
    · exact ((afterWord_append hl.2 lower_literal (atEndOfWord_following ws)).mpr ⟨hllower, rfl⟩).1

theorem legacyDefaultLength_singleton {k : List Char} (hk : k ≠ [] ∧ ∀ c ∈ k, isSpace c = false) :
    legacyDefaultLength (following [k]) = none := by
  rw [Option.eq_none_iff_forall_ne_some]
  intro n h
  obtain ⟨keyword, spaces, value, rest, hkeyword, hspaces, hvalue, -⟩ := legacyDefaultLength_eq_some.mp h
  rw [afterSpaces_following hk, Option.some.injEq] at hkeyword
  subst hkeyword
  obtain ⟨-, rfl⟩ := (afterWord_append hk.2 lower_keyword (atEndOfWord_following [])).mp
    ⟨hspaces, atEndOfWord_of_afterSpaces hvalue⟩
  cases hvalue

theorem following_cons (w : List Char) (ws : List (List Char)) : following (w :: ws) = ' ' :: (w ++ following ws) := rfl

theorem substituteFrom_following_keep {w : List Char} {ws : List (List Char)} (hw : ∀ c ∈ w, isSpace c = false)
    (h : legacyDefaultLength (following (w :: ws)) = none) :
    substituteFrom 0 (following (w :: ws)) = ' ' :: (w ++ substituteFrom 0 (following ws)) := by
  rw [following_cons] at h ⊢
  rw [substituteFrom_zero, h]
  exact congrArg (' ' :: ·) (substituteFrom_word hw _)

/-- The substitution leaves out the clauses among the words that follow another. -/
theorem substituteFrom_following {ws : List (List Char)} (h : ∀ w ∈ ws, w ≠ [] ∧ ∀ c ∈ w, isSpace c = false) :
    substituteFrom 0 (following ws) = following (dropClauses ws) := by
  induction ws using dropClauses.induct with
  | case1 => rfl
  | case2 word =>
      have hword := h word List.mem_cons_self
      rw [substituteFrom_following_keep hword.2 (legacyDefaultLength_singleton hword)]
      rfl
  | case3 keyword value rest hclause ih =>
      have hk := h keyword List.mem_cons_self
      have hl := h value (List.mem_cons_of_mem _ List.mem_cons_self)
      have hlength := (@legacyDefaultLength_following _ _ rest hk hl _).mpr ⟨hclause, rfl⟩
      have hdrop : (keyword ++ following (value :: rest)).drop (keyword.length + value.length + 1) =
          following rest := by
        rw [following_cons, add_assoc, ← List.drop_drop, List.drop_left, List.drop_succ_cons, List.drop_left]
      rw [following_cons] at hlength ⊢
      rw [substituteFrom_zero, hlength, dropClauses, if_pos hclause]
      have hrest := ih fun w hw => h w (List.mem_cons_of_mem _ (List.mem_cons_of_mem _ hw))
      rw [← hrest, ← hdrop, ← substituteFrom_drop]
      rfl
  | case4 keyword value rest hclause ih =>
      have hk := h keyword List.mem_cons_self
      have hl := h value (List.mem_cons_of_mem _ List.mem_cons_self)
      have hnone : legacyDefaultLength (following (keyword :: value :: rest)) = none := by
        rw [Option.eq_none_iff_forall_ne_some]
        exact fun n hn => hclause ((legacyDefaultLength_following hk hl).mp hn).1
      rw [substituteFrom_following_keep hk.2 hnone, ih fun w hw => h w (List.mem_cons_of_mem _ hw), dropClauses,
        if_neg hclause]
      rfl

theorem mem_dropClauses {ws : List (List Char)} {w : List Char} (h : w ∈ dropClauses ws) : w ∈ ws := by
  induction ws using dropClauses.induct with
  | case1 => exact h
  | case2 word => exact h
  | case3 keyword value rest hclause ih =>
      rw [dropClauses, if_pos hclause] at h
      exact List.mem_cons_of_mem _ (List.mem_cons_of_mem _ (ih h))
  | case4 keyword value rest hclause ih =>
      rw [dropClauses, if_neg hclause] at h
      rcases List.mem_cons.mp h with rfl | h
      · exact List.mem_cons_self
      · exact List.mem_cons_of_mem _ (ih h)

/-- A definition that begins with the name of a backfilled column. -/
def IsBackfilled (tableName : String) (definition : List Char) : Prop :=
  ∃ first rest, words isSpace definition = first :: rest ∧
    legacyBackfillColumns.contains (tableName, String.ofList (unquoted first))

/-- The words that a definition is compared by. -/
def canonicalWords (tableName : String) (ws : List (List Char)) : List (List Char) :=
  match ws with
  | [] => []
  | first :: rest =>
      if legacyBackfillColumns.contains (tableName, String.ofList (unquoted first)) then first :: dropClauses rest
      else first :: rest

theorem mem_canonicalWords {tableName : String} {ws : List (List Char)} {w : List Char}
    (h : w ∈ canonicalWords tableName ws) : w ∈ ws := by
  unfold canonicalWords at h
  split at h
  · exact h
  · split at h
    · rcases List.mem_cons.mp h with rfl | h
      · exact List.mem_cons_self
      · exact List.mem_cons_of_mem _ (mem_dropClauses h)
    · exact h

theorem canonicalDefinition_eq {tableName : String} {definition : List Char} (h : words isSpace definition ≠ []) :
    canonicalDefinition tableName definition =
      .ok ([' '].intercalate (canonicalWords tableName (words isSpace definition))) := by
  obtain ⟨first, rest, hwords⟩ := List.exists_cons_of_ne_nil h
  have hsplit : split (normalizeText definition) = first :: rest := by rw [split_eq, words_normalizeText, hwords]
  have hwell (w : List Char) (hw : w ∈ first :: rest) : w ≠ [] ∧ ∀ c ∈ w, isSpace c = false := mem_words (hwords ▸ hw)
  have hnormalized : normalizeText definition = first ++ following rest := by
    rw [normalizeText_eq, hwords, intercalate_cons_following]
  unfold canonicalDefinition
  simp only [hsplit]
  rw [hwords, canonicalWords]
  split
  · have hsubstitute : substituteLegacyDefault (normalizeText definition) =
        [' '].intercalate (first :: dropClauses rest) := by
      rw [substituteLegacyDefault, hnormalized, substituteFrom_word (hwell first List.mem_cons_self).2,
        substituteFrom_following fun w hw => hwell w (List.mem_cons_of_mem _ hw), intercalate_cons_following]
    rw [hsubstitute, normalizeText_eq, words_intercalate isSpace_space]
    intro w hw
    rcases List.mem_cons.mp hw with rfl | hw
    · exact hwell _ List.mem_cons_self
    · exact hwell _ (List.mem_cons_of_mem _ (mem_dropClauses hw))
  · rw [hnormalized, intercalate_cons_following]

/-- Definitions have the same canonical text just when they are compared by the same words. -/
theorem intercalate_canonicalWords_inj {tableName : String} {definition other : List Char} :
    [' '].intercalate (canonicalWords tableName (words isSpace definition)) =
        [' '].intercalate (canonicalWords tableName (words isSpace other)) ↔
      canonicalWords tableName (words isSpace definition) = canonicalWords tableName (words isSpace other) := by
  refine ⟨fun h => ?_, congrArg _⟩
  have hwords (text : List Char) :
      words isSpace ([' '].intercalate (canonicalWords tableName (words isSpace text))) =
        canonicalWords tableName (words isSpace text) :=
    words_intercalate isSpace_space fun w hw => mem_words (mem_canonicalWords hw)
  rw [← hwords definition, h, hwords]

/-! ## Table definitions -/

section
variable {item : List Char} {definitions : List (List Char)}

theorem splitLoop_quoted (quote : Char) (depth : Nat) (character : Char) (text : List Char) :
    splitLoop (some quote) depth item definitions (character :: text) =
      if quote = ']' then
        if character = ']' then splitLoop none depth (item ++ [character]) definitions text
        else splitLoop (some quote) depth (item ++ [character]) definitions text
      else if character = quote then
        match text with
        | [] => splitLoop none depth (item ++ [character]) definitions []
        | next :: rest =>
            if next = quote then splitLoop (some quote) depth (item ++ [character, next]) definitions rest
            else splitLoop none depth (item ++ [character]) definitions (next :: rest)
      else splitLoop (some quote) depth (item ++ [character]) definitions text := by
  cases text <;> rfl

theorem splitLoop_plain (depth : Nat) (character : Char) (text : List Char) :
    splitLoop none depth item definitions (character :: text) =
      if character ∈ ['\'', '"', '`'] then splitLoop (some character) depth (item ++ [character]) definitions text
      else if character = '[' then splitLoop (some ']') depth (item ++ [character]) definitions text
      else if character = '(' then splitLoop none (depth + 1) (item ++ [character]) definitions text
      else if character = ')' then
        if depth - 1 = 0 then .ok (definitions ++ [item], text)
        else splitLoop none (depth - 1) (item ++ [character]) definitions text
      else if character = ',' ∧ depth = 1 then splitLoop none depth [] (definitions ++ [item]) text
      else splitLoop none depth (item ++ [character]) definitions text := by
  cases text <;> rfl

theorem splitLoop_close (m : Mark) (depth : Nat) (text : List Char) :
    splitLoop (some m.close) depth item definitions (m.close :: text) =
      splitLoop none depth (item ++ [m.close]) definitions text := by
  rw [splitLoop_quoted]
  cases m with
  | bracket => rfl
  | _ =>
      -- A doubled mark closes the token and opens it again.
      cases text with
      | nil => rfl
      | cons next text =>
          simp only [Mark.close, if_true]
          rw [if_neg (by decide)]
          split_ifs with hnext
          · rw [splitLoop_plain, hnext, List.append_assoc]
            rfl
          · exact if_neg hnext

theorem splitLoop_some (m : Mark) (depth : Nat) (c : Char) (text : List Char) :
    splitLoop (some m.close) depth item definitions (c :: text) =
      splitLoop ((step (some m) c).map Mark.close) depth (item ++ [c]) definitions text := by
  by_cases hc : c = m.close
  · subst hc
    rw [splitLoop_close, step, if_pos rfl]
    rfl
  · rw [step, if_neg hc, splitLoop_quoted, if_neg hc]
    split_ifs with hbracket hclose
    · exact absurd (hclose.trans hbracket.symm) hc
    · rfl
    · rfl

/-- A character outside quotes that neither opens nor ends a list or an item. -/
theorem splitLoop_none (depth : Nat) {c : Char} (hopen : c ≠ '(') (hclose : c ≠ ')') (hcomma : ¬ (c = ',' ∧ depth = 1))
    (text : List Char) : splitLoop none depth item definitions (c :: text) =
      splitLoop ((step none c).map Mark.close) depth (item ++ [c]) definitions text := by
  rw [splitLoop_plain, step, Mark.opens, if_neg hopen, if_neg hclose, if_neg hcomma]
  split_ifs <;> simp_all [Mark.close]

theorem splitLoop_walk {q q' : Option Mark} {depth depth' : Nat} {text : List Char}
    (h : walk q depth text = some (q', depth')) (item rest : List Char) :
    splitLoop (q.map Mark.close) (depth + 1) item definitions (text ++ rest) =
      splitLoop (q'.map Mark.close) (depth' + 1) (item ++ text) definitions rest := by
  induction text generalizing q depth item with
  | nil =>
      cases h
      rw [List.append_nil]
      rfl
  | cons c text ih =>
      have happend : item ++ c :: text = item ++ [c] ++ text := by simp
      rw [happend, List.cons_append]
      cases q with
      | some m =>
          rw [walk] at h
          rw [Option.map_some, splitLoop_some]
          exact ih h _
      | none =>
          simp only [walk] at h
          rw [Option.map_none]
          split_ifs at h with hopen hclose hcomma
          · rw [splitLoop_plain, hopen]
            exact ih h _
          · cases depth with
            | zero => cases h
            | succ depth =>
                rw [splitLoop_plain, hclose]
                exact ih h _
          · rw [splitLoop_none (depth + 1) hopen hclose fun hc => hcomma ⟨hc.1, Nat.succ_injective hc.2⟩]
            exact ih h _

theorem splitLoop_definitions {ds : List (List Char)} (hne : ds ≠ []) (hclosed : ∀ d ∈ ds, Closed d)
    (suffix : List Char) :
    splitLoop none 1 [] definitions ([','].intercalate ds ++ ')' :: suffix) = .ok (definitions ++ ds, suffix) := by
  induction ds generalizing definitions with
  | nil => exact absurd rfl hne
  | cons d ds ih =>
      have hd (rest : List Char) :
          splitLoop none 1 [] definitions (d ++ rest) = splitLoop none 1 ([] ++ d) definitions rest :=
        splitLoop_walk (hclosed d List.mem_cons_self) [] rest
      cases ds with
      | nil =>
          rw [List.intercalate_singleton, hd]
          rfl
      | cons e ds =>
          rw [List.intercalate_cons_cons, List.append_assoc, List.append_assoc, hd]
          have hrest := @ih (definitions ++ [d]) (by simp) fun d hd => hclosed d (List.mem_cons_of_mem _ hd)
          rw [List.append_assoc] at hrest
          exact hrest

end

/-- A `CREATE TABLE` statement without comments, of a table whose name holds no parenthesis. -/
structure TableText where
  head : List Char
  definitions : List (List Char)
  suffix : List Char
  head_plain : ∀ c ∈ head, c ≠ '('
  definitions_ne : definitions ≠ []
  closed : ∀ d ∈ definitions, Closed d
  written : ∀ d ∈ definitions, words isSpace d ≠ []
  suffix_closed : quoteAfter none suffix = none

namespace TableText

def text (t : TableText) : List Char :=
  t.head ++ '(' :: ([','].intercalate t.definitions ++ ')' :: t.suffix)

theorem splitTableDefinition_text (t : TableText) : splitTableDefinition t.text = .ok (t.definitions, t.suffix) := by
  have hhead : t.text.dropWhile (· ≠ '(') = '(' :: ([','].intercalate t.definitions ++ ')' :: t.suffix) := by
    rw [text, List.dropWhile_append_of_pos fun c hc => decide_eq_true (t.head_plain c hc)]
    rfl
  rw [splitTableDefinition, hhead]
  exact splitLoop_definitions t.definitions_ne t.closed t.suffix

/-- The canonical text of each definition, in the order of the statement. -/
def canonicalTexts (tableName : String) (t : TableText) : List (List Char) :=
  t.definitions.map fun d => [' '].intercalate (canonicalWords tableName (words isSpace d))

theorem canonicalTableDdl_text (casefold : List Char → List Char) (tableName : String) (t : TableText) :
    canonicalTableDdl casefold tableName (some t.text) =
      .ok (some (sortBy (fun item => toLex (casefold item, item)) (t.canonicalTexts tableName),
        normalizeText t.suffix)) := by
  have hdefinitions : t.definitions.mapM (canonicalDefinition tableName) = .ok (t.canonicalTexts tableName) :=
    mapM_ok fun d hd => canonicalDefinition_eq (t.written d hd)
  rw [canonicalTableDdl, splitTableDefinition_text, ok_bind]
  simp only [hdefinitions]
  rfl

theorem canonicalTableDdl_eq_iff {casefold : List Char → List Char} {tableName : String} {t u : TableText} :
    canonicalTableDdl casefold tableName (some t.text) = canonicalTableDdl casefold tableName (some u.text) ↔
      sortBy (fun item => toLex (casefold item, item)) (t.canonicalTexts tableName) =
        sortBy (fun item => toLex (casefold item, item)) (u.canonicalTexts tableName) ∧
      words isSpace t.suffix = words isSpace u.suffix := by
  rw [canonicalTableDdl_text, canonicalTableDdl_text]
  simp only [Except.ok.injEq, Option.some.injEq, Prod.mk.injEq, normalizeText_eq_iff]

end TableText

/-! ## What may differ -/

/-- A text of words, and what is left of it without some defaults of the backfill. -/
inductive WithoutClauses (literal : List Char → Prop) : List (List Char) → List (List Char) → Prop
  | nil : WithoutClauses literal [] []
  | keep {ws vs : List (List Char)} (w : List Char) :
      WithoutClauses literal ws vs → WithoutClauses literal (w :: ws) (w :: vs)
  | leave {keyword value : List Char} {ws vs : List (List Char)} : keyword.map Char.toLower = "default".toList →
      literal value → WithoutClauses literal ws vs → WithoutClauses literal (keyword :: value :: ws) vs

/-- Definitions that differ in white space outside quotes, or in defaults of the backfill of its columns. -/
def SameDefinition (literal : List Char → Prop) (tableName : String) (d e : List Char) : Prop :=
  tokens isSpace d = tokens isSpace e ∨ IsBackfilled tableName d ∧ IsBackfilled tableName e ∧
    ∃ common, WithoutClauses literal (tokens isSpace d) common ∧ WithoutClauses literal (tokens isSpace e) common

/-- Statements that differ in the order of their definitions, and in what each of these may differ in. -/
def OnlyDiffer (literal : List Char → Prop) (tableName : String) (t u : TableText) : Prop :=
  (∃ ds, ds.Perm t.definitions ∧ List.Forall₂ (SameDefinition literal tableName) ds u.definitions) ∧
    tokens isSpace t.suffix = tokens isSpace u.suffix

/-- The literal of the backfill as it is written. -/
def exactLiteral (value : List Char) : Prop := value = "'legacy'".toList

/-- The literal of the backfill in any case. -/
def anyCaseLiteral (value : List Char) : Prop := value.map Char.toLower = "'legacy'".toList

/-- Statements of one table with one canonical form differ in nothing else. -/
def Sound (literal : List Char → Prop) (casefold : List Char → List Char) (tableName : String) (t : TableText) : Prop :=
  ∀ u : TableText, u.head = t.head →
    canonicalTableDdl casefold tableName (some t.text) = canonicalTableDdl casefold tableName (some u.text) →
    OnlyDiffer literal tableName t u

/-- White space stands outside quotes only. -/
def TableText.NoQuotedSpace (t : TableText) : Prop :=
  (∀ d ∈ t.definitions, NoQuotedBlank isSpace none d) ∧ NoQuotedBlank isSpace none t.suffix

variable {literal : List Char → Prop} {casefold : List Char → List Char} {tableName : String} {t u : TableText}

/-! ### Without quoted white space -/

theorem step_of_letter {c : Char} (h : 65 ≤ c.toNat ∧ c.toNat ≤ 90 ∨ 97 ≤ c.toNat ∧ c.toNat ≤ 122) (q : Option Mark) :
    step q c = q := by
  have hne (m : Char) (hm : m.toNat ∈ [39, 34, 96, 91, 93]) : c ≠ m := by
    rintro rfl
    simp only [List.mem_cons, List.not_mem_nil, or_false] at hm
    omega
  cases q with
  | none =>
      rw [step, Mark.opens, if_neg (hne _ (by decide)), if_neg (hne _ (by decide)), if_neg (hne _ (by decide)),
        if_neg (hne _ (by decide))]
  | some m => exact if_neg (hne _ (by cases m <;> decide))

theorem step_toLower (q : Option Mark) (c : Char) : step q c.toLower = step q c := by
  rcases toLower_eq_or c with h | ⟨hlow, hhigh, h⟩
  · rw [h]
  · rw [step_of_letter (.inr (by omega)), step_of_letter (.inl ⟨hlow, hhigh⟩)]

theorem quoteAfter_map_toLower (q : Option Mark) (word : List Char) :
    quoteAfter q (word.map Char.toLower) = quoteAfter q word := by
  induction word generalizing q with
  | nil => rfl
  | cons c word ih => rw [List.map_cons, quoteAfter_cons, quoteAfter_cons, step_toLower, ih]

theorem IsClause.quoteAfter_eq {keyword value : List Char} (h : IsClause keyword value) :
    quoteAfter none keyword = none ∧ quoteAfter none value = none := by
  rw [← quoteAfter_map_toLower none keyword, ← quoteAfter_map_toLower none value, h.1, h.2]
  decide

/-- A word that is left out belongs to a clause. -/
theorem mem_dropClauses_or {ws : List (List Char)} {w : List Char} (h : w ∈ ws) :
    w ∈ dropClauses ws ∨ quoteAfter none w = none := by
  induction ws using dropClauses.induct with
  | case1 => cases h
  | case2 word => exact .inl h
  | case3 keyword value rest hclause ih =>
      rw [dropClauses, if_pos hclause]
      rcases List.mem_cons.mp h with rfl | h
      · exact .inr hclause.quoteAfter_eq.1
      · rcases List.mem_cons.mp h with rfl | h
        · exact .inr hclause.quoteAfter_eq.2
        · exact ih h
  | case4 keyword value rest hclause ih =>
      rw [dropClauses, if_neg hclause]
      rcases List.mem_cons.mp h with rfl | h
      · exact .inl List.mem_cons_self
      · exact (ih h).imp_left (List.mem_cons_of_mem keyword)

theorem mem_canonicalWords_or {ws : List (List Char)} {w : List Char} (h : w ∈ ws) :
    w ∈ canonicalWords tableName ws ∨ quoteAfter none w = none := by
  cases ws with
  | nil => cases h
  | cons first rest =>
      rw [canonicalWords]
      split
      · rcases List.mem_cons.mp h with rfl | h
        · exact .inl List.mem_cons_self
        · exact (mem_dropClauses_or h).imp_left (List.mem_cons_of_mem first)
      · exact .inl h

theorem withoutClauses_dropClauses (hliteral : ∀ value, anyCaseLiteral value → literal value) (ws : List (List Char)) :
    WithoutClauses literal ws (dropClauses ws) := by
  induction ws using dropClauses.induct with
  | case1 => exact .nil
  | case2 word => exact .keep word .nil
  | case3 keyword value rest hclause ih =>
      rw [dropClauses, if_pos hclause]
      exact .leave hclause.1 (hliteral value hclause.2) ih
  | case4 keyword value rest hclause ih =>
      rw [dropClauses, if_neg hclause]
      exact .keep keyword ih

/-- What has the canonical words of a definition without quoted white space has none itself. -/
theorem noQuotedBlank_of_canonicalWords {d e : List Char} (hd : NoQuotedBlank isSpace none d) (hdclosed : Closed d)
    (heclosed : Closed e)
    (h : canonicalWords tableName (words isSpace d) = canonicalWords tableName (words isSpace e)) :
    NoQuotedBlank isSpace none e := by
  rw [noQuotedBlank_iff plainBlanks_isSpace hdclosed.quoteAfter_eq] at hd
  rw [noQuotedBlank_iff plainBlanks_isSpace heclosed.quoteAfter_eq]
  intro w hw
  rcases mem_canonicalWords_or hw with hmem | hw
  · rw [← h] at hmem
    exact hd w (mem_canonicalWords hmem)
  · exact hw

theorem sameDefinition_of_canonicalWords {d e : List Char} (hd : NoQuotedBlank isSpace none d)
    (he : NoQuotedBlank isSpace none e) (hwritten : words isSpace d ≠ [] ∧ words isSpace e ≠ [])
    (hliteral : IsBackfilled tableName d → ∀ value, anyCaseLiteral value → literal value)
    (h : canonicalWords tableName (words isSpace d) = canonicalWords tableName (words isSpace e)) :
    SameDefinition literal tableName d e := by
  obtain ⟨first, rest, hwords⟩ := List.exists_cons_of_ne_nil hwritten.1
  obtain ⟨first', rest', hwords'⟩ := List.exists_cons_of_ne_nil hwritten.2
  rw [SameDefinition, tokens_eq_words plainBlanks_isSpace hd, tokens_eq_words plainBlanks_isSpace he, hwords, hwords']
  rw [hwords, hwords', canonicalWords, canonicalWords] at h
  have hfirst : first = first' := by
    split_ifs at h <;> exact (List.cons.inj h).1
  subst hfirst
  by_cases hcolumn : legacyBackfillColumns.contains (tableName, String.ofList (unquoted first))
  · rw [if_pos hcolumn, if_pos hcolumn] at h
    have hbackfilled : IsBackfilled tableName d := ⟨first, rest, hwords, hcolumn⟩
    have hrest := hliteral hbackfilled
    refine .inr ⟨hbackfilled, ⟨first, rest', hwords', hcolumn⟩, first :: dropClauses rest, ?_, ?_⟩
    · exact .keep first (withoutClauses_dropClauses hrest rest)
    · rw [(List.cons.inj h).2]
      exact .keep first (withoutClauses_dropClauses hrest rest')
  · rw [if_neg hcolumn, if_neg hcolumn] at h
    exact .inl h

/-- Lists of texts with the same image in another order. -/
theorem exists_perm_forall₂ {α β : Type} {f : α → β} {l m : List α} (h : (l.map f).Perm (m.map f)) :
    ∃ l', l'.Perm l ∧ List.Forall₂ (fun a b => f a = f b) l' m := by
  have hl : List.Forall₂ (fun b a => b = f a) (l.map f) l := by
    rw [List.forall₂_map_left_iff]
    exact List.forall₂_same.mpr fun _ _ => rfl
  obtain ⟨l', hforall, hperm⟩ := List.perm_comp_forall₂ h.symm hl
  rw [List.forall₂_map_left_iff] at hforall
  exact ⟨l', hperm, hforall.flip.imp fun _ _ hab => hab.symm⟩

/-- Without quoted white space one canonical form means one table. -/
theorem sound_of_noQuotedSpace (h : t.NoQuotedSpace)
    (hliteral : ∀ d ∈ t.definitions, IsBackfilled tableName d → ∀ value, anyCaseLiteral value → literal value) :
    Sound literal casefold tableName t := by
  intro u _ hddl
  obtain ⟨hsort, hsuffix⟩ := TableText.canonicalTableDdl_eq_iff.mp hddl
  obtain ⟨ds, hperm, hds⟩ := exists_perm_forall₂ (perm_of_sortBy_eq hsort)
  obtain ⟨hlength, hzip⟩ := List.forall₂_iff_zip.mp hds
  refine ⟨⟨ds, hperm, List.forall₂_iff_zip.mpr ⟨hlength, fun {d e} hde => ?_⟩⟩, ?_⟩
  · obtain ⟨hd, he⟩ := List.of_mem_zip hde
    replace hd := hperm.subset hd
    have hwords := intercalate_canonicalWords_inj.mp (hzip hde)
    have hquoted := noQuotedBlank_of_canonicalWords (h.1 d hd) (t.closed d hd) (u.closed e he) hwords
    exact sameDefinition_of_canonicalWords (h.1 d hd) hquoted ⟨t.written d hd, u.written e he⟩ (hliteral d hd) hwords
  · have hclosed := (noQuotedBlank_iff plainBlanks_isSpace t.suffix_closed).mp h.2
    rw [hsuffix, ← noQuotedBlank_iff plainBlanks_isSpace u.suffix_closed] at hclosed
    rw [tokens_eq_words plainBlanks_isSpace h.2, tokens_eq_words plainBlanks_isSpace hclosed, hsuffix]

/-! ### With quoted white space -/

theorem WithoutClauses.length_mod {ws vs : List (List Char)} (h : WithoutClauses literal ws vs)
    (hliteral : ∀ value, literal value → anyCaseLiteral value) : ws.flatten.length % 15 = vs.flatten.length % 15 := by
  induction h with
  | nil => rfl
  | keep w _ ih =>
      simp only [List.flatten_cons, List.length_append]
      omega
  | leave hkeyword hvalue _ ih =>
      have hkeyword := length_of_map_toLower hkeyword
      have hvalue := length_of_map_toLower (hliteral _ hvalue)
      simp only [List.flatten_cons, List.length_append, hkeyword, hvalue]
      have hlength : "default".toList.length = 7 ∧ "'legacy'".toList.length = 8 := by decide
      omega

theorem WithoutClauses.count_eq {ws vs : List (List Char)} (h : WithoutClauses literal ws vs) {w : List Char}
    (hkeyword : w.map Char.toLower ≠ "default".toList) (hvalue : ¬ literal w) : ws.count w = vs.count w := by
  induction h with
  | nil => rfl
  | keep v _ ih => rw [List.count_cons, List.count_cons, ih]
  | leave hk hv _ ih =>
      rw [List.count_cons_of_ne, List.count_cons_of_ne, ih]
      · rintro rfl
        exact hvalue hv
      · rintro rfl
        exact hkeyword hk

/-- The length of what is written outside quoted blanks differs by whole clauses only. -/
theorem SameDefinition.kept_mod {d e : List Char} (h : SameDefinition literal tableName d e)
    (hliteral : ∀ value, literal value → anyCaseLiteral value) :
    kept isSpace none d % 15 = kept isSpace none e % 15 := by
  rw [← length_flatten_tokens plainBlanks_isSpace, ← length_flatten_tokens plainBlanks_isSpace]
  rcases h with h | ⟨-, -, common, hd, he⟩
  · rw [h]
  · rw [hd.length_mod hliteral, he.length_mod hliteral]

theorem SameDefinition.count_eq {d e : List Char} (h : SameDefinition literal tableName d e) {w : List Char}
    (hkeyword : w.map Char.toLower ≠ "default".toList) (hvalue : ¬ literal w) :
    (tokens isSpace d).count w = (tokens isSpace e).count w := by
  rcases h with h | ⟨-, -, common, hd, he⟩
  · rw [h]
  · rw [hd.count_eq hkeyword hvalue, he.count_eq hkeyword hvalue]

theorem sum_map_eq_of_forall₂ {α : Type} {R : α → α → Prop} {f : α → Nat} {l m : List α} (h : List.Forall₂ R l m)
    (hf : ∀ a b, R a b → f a = f b) : (l.map f).sum = (m.map f).sum := by
  induction h with
  | nil => rfl
  | cons hab _ ih => rw [List.map_cons, List.map_cons, List.sum_cons, List.sum_cons, hf _ _ hab, ih]

/-- What is the same of definitions that may differ adds up to the same. -/
theorem OnlyDiffer.sum_eq (h : OnlyDiffer literal tableName t u) {f : List Char → Nat}
    (hf : ∀ d e, SameDefinition literal tableName d e → f d = f e) :
    (t.definitions.map f).sum = (u.definitions.map f).sum := by
  obtain ⟨⟨ds, hperm, hds⟩, -⟩ := h
  rw [← (hperm.map f).sum_eq]
  exact sum_map_eq_of_forall₂ hds hf

theorem forall_mem_replaced {α : Type} {p : α → Prop} {before after : List α} {a b : α}
    (h : ∀ x ∈ before ++ a :: after, p x) (hb : p b) : ∀ x ∈ before ++ b :: after, p x := by
  rw [List.forall_mem_append, List.forall_mem_cons] at h ⊢
  exact ⟨h.1, hb, h.2.2⟩

/-- The statement with another definition in the place of one. -/
def TableText.replace (t : TableText) {before after : List (List Char)} {d : List Char} (e : List Char)
    (h : t.definitions = before ++ d :: after) (hclosed : Closed e) (hwritten : words isSpace e ≠ []) : TableText where
  head := t.head
  definitions := before ++ e :: after
  suffix := t.suffix
  head_plain := t.head_plain
  definitions_ne := List.append_ne_nil_of_right_ne_nil before (List.cons_ne_nil e after)
  closed := forall_mem_replaced (h ▸ t.closed) hclosed
  written := forall_mem_replaced (h ▸ t.written) hwritten
  suffix_closed := t.suffix_closed

/-- A definition can stand for another with its canonical words only if nothing that is the same of them tells them
apart. -/
theorem Sound.eq_of_canonicalWords (hsound : Sound literal casefold tableName t) {d e : List Char}
    (hd : d ∈ t.definitions) (hclosed : Closed e) (hwritten : words isSpace e ≠ [])
    (hwords : canonicalWords tableName (words isSpace d) = canonicalWords tableName (words isSpace e))
    {f : List Char → Nat} (hf : ∀ d e, SameDefinition literal tableName d e → f d = f e) : f d = f e := by
  obtain ⟨before, after, h⟩ := List.append_of_mem hd
  have htexts : t.canonicalTexts tableName = (t.replace e h hclosed hwritten).canonicalTexts tableName := by
    simp only [TableText.canonicalTexts, h, TableText.replace, List.map_append, List.map_cons, hwords]
  have honly := hsound (t.replace e h hclosed hwritten) rfl
    (TableText.canonicalTableDdl_eq_iff.mpr ⟨by rw [htexts], rfl⟩)
  have hsum := honly.sum_eq hf
  simp only [h, TableText.replace, List.map_append, List.map_cons, List.sum_append, List.sum_cons] at hsum
  omega

theorem noQuotedSpace_of_sound (hliteral : ∀ value, literal value → anyCaseLiteral value)
    (hsound : Sound literal casefold tableName t) : t.NoQuotedSpace := by
  constructor
  · intro d hd
    by_contra hquoted
    obtain ⟨before, c, after, rfl, hc, hq⟩ := exists_quotedBlank hquoted
    have hclosed : Closed (before ++ c :: c :: after) := by
      rw [Closed, walk_twice plainBlanks_isSpace hc]
      exact t.closed _ hd
    have hwritten := t.written _ hd
    rw [← words_twice hc] at hwritten
    have hkept := hsound.eq_of_canonicalWords hd hclosed hwritten (by rw [words_twice hc])
      (f := fun d => kept isSpace none d % 15) fun d e hde => hde.kept_mod hliteral
    have htwice := kept_twice plainBlanks_isSpace hc hq after
    omega
  · by_contra hquoted
    obtain ⟨before, c, after, h, hc, hq⟩ := exists_quotedBlank hquoted
    have hclosed : quoteAfter none (before ++ c :: c :: after) = none := by
      rw [quoteAfter_twice plainBlanks_isSpace hc, ← h]
      exact t.suffix_closed
    have honly := hsound { t with suffix := before ++ c :: c :: after, suffix_closed := hclosed } rfl
      (TableText.canonicalTableDdl_eq_iff.mpr ⟨rfl, by rw [h, words_twice hc]⟩)
    have htokens : tokens isSpace (before ++ c :: after) = tokens isSpace (before ++ c :: c :: after) := h ▸ honly.2
    have hkept := congrArg (·.flatten.length) htokens
    simp only [length_flatten_tokens plainBlanks_isSpace, kept_twice plainBlanks_isSpace hc hq after] at hkept
    omega

/-- A clause with another literal than the one that may be left out. -/
def upperClause : List Char := " DEFAULT 'LEGACY'".toList

theorem dropClauses_append_upperClause (ws : List (List Char)) :
    dropClauses (ws ++ ["DEFAULT".toList, "'LEGACY'".toList]) = dropClauses ws := by
  induction ws using dropClauses.induct with
  | case1 => decide
  | case2 word =>
      have hvalue : ¬ IsClause word "DEFAULT".toList := fun h => absurd h.2 (by decide)
      have hcons : dropClauses [word, "DEFAULT".toList, "'LEGACY'".toList] =
          word :: dropClauses ["DEFAULT".toList, "'LEGACY'".toList] := if_neg hvalue
      have hclause : dropClauses ["DEFAULT".toList, "'LEGACY'".toList] = [] := by decide
      rw [List.singleton_append, hcons, hclause]
      rfl
  | case3 keyword value rest hclause ih =>
      rw [List.cons_append, List.cons_append, dropClauses, if_pos hclause, dropClauses, if_pos hclause, ih]
  | case4 keyword value rest hclause ih =>
      rw [List.cons_append, List.cons_append, dropClauses, if_neg hclause, ← List.cons_append, ih, dropClauses,
        if_neg hclause]

theorem not_isBackfilled_of_sound (hsound : Sound exactLiteral casefold tableName t) {d : List Char}
    (hd : d ∈ t.definitions) : ¬ IsBackfilled tableName d := by
  rintro ⟨first, rest, hwords, hcolumn⟩
  have hupper : words isSpace upperClause = ["DEFAULT".toList, "'LEGACY'".toList] := by decide
  have hwords' : words isSpace (d ++ upperClause) = words isSpace d ++ words isSpace upperClause :=
    words_append_blank isSpace_space d _
  have htokens : tokens isSpace (d ++ upperClause) = tokens isSpace d ++ tokens isSpace upperClause :=
    tokens_append_blank plainBlanks_isSpace isSpace_space (t.closed d hd).quoteAfter_eq _
  have hclosed : Closed (d ++ upperClause) := by
    have hd : walk none 0 d = some (none, 0) := t.closed d hd
    rw [Closed, walk_append, hd]
    decide
  have hcanonical : canonicalWords tableName (words isSpace d) =
      canonicalWords tableName (words isSpace (d ++ upperClause)) := by
    rw [hwords', hupper, hwords, List.cons_append, canonicalWords, canonicalWords, if_pos hcolumn, if_pos hcolumn,
      dropClauses_append_upperClause]
  have hcount := hsound.eq_of_canonicalWords hd hclosed (by simp [hwords', hwords]) hcanonical
    (f := fun d => (tokens isSpace d).count "'LEGACY'".toList) fun d e hde => hde.count_eq (by decide) (by
      rw [exactLiteral]
      decide)
  have hone : (tokens isSpace upperClause).count "'LEGACY'".toList = 1 := by decide
  simp only [htokens, List.count_append, hone] at hcount
  omega

/-! ## Upgrades -/

/-- Operations that change the database. -/
def Changes (o : SchemaOp) : Prop := (∃ revision, o = .stamp revision) ∨ ∃ revision, o = .upgrade revision

/-- The database was found empty, or with the structure of the revision it is taken for. -/
def Adopted (python : PythonText) (tr : List (Performed SchemaSig)) : Prop :=
  ∃ found, tr.head? = some ⟨.inspect, .ok found⟩ ∧
    (found.2.2 = [] ∧ found.2.1 = false ∨
      ∃ revision trusted items,
        (if found.2.1 then found.1 = some revision else revision = UNVERSIONED_BASELINE) ∧
        ⟨.inspectReference revision, .ok trusted⟩ ∈ tr ∧
        semanticStructure python found.2.2 = .ok items ∧ semanticStructure python trusted.2.2 = .ok items)

/-- The database changes only after it was adopted. -/
def ChangesAdopted (python : PythonText) (tr : List (Performed SchemaSig)) : Prop :=
  ∀ before e after, tr = before ++ e :: after → Changes e.op → Adopted python before

section
variable {python : PythonText} {tr : List (Performed SchemaSig)}

theorem ends_callSchema {α : Type} {o : SchemaOp} {read : SchemaSig.Res o → Except SchemaError α}
    {F : List (Performed SchemaSig) → Except SchemaError α → Prop} :
    Prog.Ends (fun _ _ => True) (callSchema o read) tr F ↔ ∀ answer, F (tr ++ [⟨o, answer⟩]) (read answer) := by
  simp [Prog.Ends, callSchema, Prog.Traced, ExceptT.run_mk]

theorem Adopted.append (h : Adopted python tr) (es : List (Performed SchemaSig)) : Adopted python (tr ++ es) := by
  obtain ⟨found, hhead, h⟩ := h
  refine ⟨found, by rw [List.head?_append, hhead]; rfl, h.imp_right ?_⟩
  rintro ⟨revision, trusted, items, hrevision, hmem, hitems⟩
  exact ⟨revision, trusted, items, hrevision, List.mem_append_left es hmem, hitems⟩

theorem ChangesAdopted.append (h : ChangesAdopted python tr) {es : List (Performed SchemaSig)}
    (hes : ∀ before e after, es = before ++ e :: after → Changes e.op → Adopted python (tr ++ before)) :
    ChangesAdopted python (tr ++ es) := by
  intro before e after heq hchanges
  rcases List.append_eq_append_iff.mp heq with ⟨more, rfl, hmore⟩ | ⟨more, htr, hmore⟩
  · exact hes more e after hmore hchanges
  · cases more with
    | nil =>
        rw [List.append_nil] at htr
        have hadopted := hes [] e after hmore.symm hchanges
        rwa [List.append_nil, htr] at hadopted
    | cons e' more =>
        obtain ⟨rfl, -⟩ := List.cons.inj hmore
        exact h before e more htr hchanges

/-- Nothing is required of what a program does after the database was adopted. -/
theorem ends_of_adopted {α : Type} (m : SchemaM α) (h : ChangesAdopted python tr) (hadopted : Adopted python tr) :
    Prog.Ends (fun _ _ => True) m tr fun tr' _ => ChangesAdopted python tr' := by
  have honly : Prog.PerformsOnly (fun _ => True) m := by
    unfold Prog.PerformsOnly
    generalize m.run = p
    induction p with
    | ret a => trivial
    | op o k ih => exact ⟨trivial, ih⟩
  apply (honly.ends tr).mono
  rintro tr' _ ⟨es, rfl, -⟩
  exact h.append fun before e after _ _ => hadopted.append before

theorem ChangesAdopted.perform (h : ChangesAdopted python tr) {e : Performed SchemaSig} (he : ¬ Changes e.op) :
    ChangesAdopted python (tr ++ [e]) := by
  refine h.append fun before e' after heq hchanges => ?_
  cases before with
  | nil =>
      obtain ⟨rfl, -⟩ := List.cons.inj heq
      exact absurd hchanges he
  | cons b before =>
      obtain ⟨-, heq⟩ := List.cons.inj heq
      cases before <;> cases heq

theorem inspectionOf_eq_ok {found : Found} {inspection : DatabaseInspection}
    (h : inspectionOf python found = .ok inspection) :
    inspection.revision = found.1 ∧ inspection.hasVersionTable = found.2.1 ∧ inspection.structureItems = found.2.2 ∧
      semanticStructure python found.2.2 = .ok inspection.semanticItems := by
  obtain ⟨items, hitems, hinspection⟩ := bind_eq_ok.mp h
  rw [pure_eq_ok] at hinspection
  subst hinspection
  exact ⟨rfl, rfl, rfl, hitems⟩

theorem not_changes_inspectReference (revision : String) : ¬ Changes (.inspectReference revision) := by
  rintro (⟨_, h⟩ | ⟨_, h⟩) <;> cases h

/-- What an accepted structure was compared with. -/
theorem ends_requireSemanticStructure (h : ChangesAdopted python tr) (inspection : DatabaseInspection)
    (revision : String) :
    Prog.Ends (fun _ _ => True) (requireSemanticStructure python inspection revision) tr fun tr' r =>
      ChangesAdopted python tr' ∧ (r = .ok () → ∃ trusted, tr' = tr ++ [⟨.inspectReference revision, .ok trusted⟩] ∧
        semanticStructure python trusted.2.2 = .ok inspection.semanticItems) := by
  unfold requireSemanticStructure referenceInspection
  rw [Prog.ends_bind, ends_callSchema]
  intro answer
  have hperform := h.perform (e := ⟨.inspectReference revision, answer⟩) (not_changes_inspectReference revision)
  cases hanswer : answer >>= inspectionOf python with
  | error e => cases e <;> exact ⟨hperform, fun h => by cases h⟩
  | ok expected =>
      obtain ⟨trusted, rfl, hexpected⟩ := bind_eq_ok.mp hanswer
      simp only [Prog.ends_ite]
      refine ⟨fun _ => ⟨hperform, fun h => by cases h⟩, fun hequal => ⟨hperform, fun _ => ⟨trusted, rfl, ?_⟩⟩⟩
      rw [not_not.mp hequal]
      exact (inspectionOf_eq_ok hexpected).2.2.2

theorem upgradeDatabase_changesAdopted (python : PythonText) :
    Prog.Ends (fun _ _ => True) (upgradeDatabase python) [] fun tr _ => ChangesAdopted python tr := by
  unfold upgradeDatabase inspectDatabase headRevision
  rw [Prog.ends_bind, ends_callSchema]
  intro answer
  have hempty : ChangesAdopted python [] := fun before e after h => by cases before <;> cases h
  have hinspect : ChangesAdopted python [⟨.inspect, answer⟩] :=
    hempty.perform (e := ⟨.inspect, answer⟩) (by rintro (⟨_, h⟩ | ⟨_, h⟩) <;> cases h)
  cases hanswer : answer >>= inspectionOf python with
  | error e => exact hinspect
  | ok inspection =>
      obtain ⟨found, rfl, hfound⟩ := bind_eq_ok.mp hanswer
      obtain ⟨hrevision, htable, hitems, hsemantic⟩ := inspectionOf_eq_ok hfound
      simp only
      rw [Prog.ends_bind, ends_callSchema]
      intro head
      have hhead : ChangesAdopted python [⟨.inspect, .ok found⟩, ⟨.headRevision, head⟩] :=
        hinspect.perform (e := ⟨.headRevision, head⟩) (by rintro (⟨_, h⟩ | ⟨_, h⟩) <;> cases h)
      cases head with
      | error e => exact hhead
      | ok head =>
          -- Whatever is taken for its revision, the structure was compared with it first.
          have hmatch (revision : String) (hcase : if found.2.1 then found.1 = some revision
              else revision = UNVERSIONED_BASELINE) (m : SchemaM String) :
              Prog.Ends (fun _ _ => True) (requireSemanticStructure python inspection revision >>= fun _ => m)
                [⟨.inspect, .ok found⟩, ⟨.headRevision, .ok head⟩] fun tr _ => ChangesAdopted python tr := by
            apply (ends_requireSemanticStructure hhead inspection revision).seq
            · intro tr' _ h
              obtain ⟨trusted, rfl, htrusted⟩ := h.2 rfl
              refine ends_of_adopted m h.1 ⟨found, rfl, .inr ⟨revision, trusted, _, hcase, ?_, hsemantic, htrusted⟩⟩
              exact List.mem_append_right _ List.mem_cons_self
            · exact fun tr' e h => h.1
          simp only [id]
          split_ifs with hisEmpty hversion
          · refine ends_of_adopted _ hhead ⟨found, rfl, .inl ?_⟩
            simpa [DatabaseInspection.isEmpty, hitems, htable] using hisEmpty
          · cases hrev : inspection.revision with
            | none => exact hhead
            | some revision => exact hmatch revision (by rw [if_pos (htable ▸ hversion), ← hrevision, hrev]) _
          · exact hmatch UNVERSIONED_BASELINE (by rw [← htable, if_neg hversion]) _

end

/-! ## Adoption -/

theorem create_plain : ∀ c ∈ "CREATE TABLE t ".toList, c ≠ '(' := List.all_iff_forall_prop.mp (by decide)

/-- A table of one column with a check. -/
def checkedTable (check : List Char) (hclosed : Closed check) (hwritten : words isSpace check ≠ []) : TableText where
  head := "CREATE TABLE t ".toList
  definitions := [check]
  suffix := []
  head_plain := create_plain
  definitions_ne := List.cons_ne_nil check []
  closed := List.forall_mem_singleton.mpr hclosed
  written := List.forall_mem_singleton.mpr hwritten
  suffix_closed := rfl

def oneBlank : TableText := checkedTable "a TEXT CHECK (a <> 'x y')".toList rfl (by decide)

def twoBlanks : TableText := checkedTable "a TEXT CHECK (a <> 'x  y')".toList rfl (by decide)

end CadHarness.Persistence
