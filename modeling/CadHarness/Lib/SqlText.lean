import Mathlib.Data.List.Basic
import Mathlib.Tactic.Tauto

/-!
# Text with quoted tokens

Quotes of SQL: a string or a name between two quotation marks, where a doubled mark closes the token and opens it again, or
a name between brackets. The words of a text end at every blank, its tokens only at those outside quotes. Comments are no
tokens here.
-/

namespace CadHarness.Lib.Sql

/-! ## Quotes -/

/-- What a quoted token stands between. -/
inductive Mark where
  | apostrophe
  | quotation
  | grave
  | bracket
  deriving DecidableEq

namespace Mark

def opens (c : Char) : Option Mark :=
  if c = '\'' then some apostrophe
  else if c = '"' then some quotation
  else if c = '`' then some grave
  else if c = '[' then some bracket
  else none

def close : Mark → Char
  | apostrophe => '\''
  | quotation => '"'
  | grave => '`'
  | bracket => ']'

end Mark

/-- The quotes around what follows a character. -/
def step : Option Mark → Char → Option Mark
  | none, c => Mark.opens c
  | some m, c => if c = m.close then none else some m

def quoteAfter (q : Option Mark) (text : List Char) : Option Mark := text.foldl step q

@[simp] theorem quoteAfter_nil (q : Option Mark) : quoteAfter q [] = q := rfl

@[simp] theorem quoteAfter_cons (q : Option Mark) (c : Char) (text : List Char) :
    quoteAfter q (c :: text) = quoteAfter (step q c) text := rfl

@[simp] theorem quoteAfter_append (q : Option Mark) (text rest : List Char) :
    quoteAfter q (text ++ rest) = quoteAfter (quoteAfter q text) rest := List.foldl_append

/-! ## Parentheses -/

/-- The quote and the depth after a part of a list, unless it ends the list or its item. -/
def walk : Option Mark → Nat → List Char → Option (Option Mark × Nat)
  | q, depth, [] => some (q, depth)
  | some q, depth, c :: text => walk (step (some q) c) depth text
  | none, depth, c :: text =>
      if c = '(' then walk none (depth + 1) text
      else if c = ')' then
        match depth with
        | 0 => none
        | depth + 1 => walk none depth text
      else if c = ',' ∧ depth = 0 then none
      else walk (step none c) depth text

/-- A whole item of a list: its quotes and parentheses are closed. -/
def Closed (item : List Char) : Prop := walk none 0 item = some (none, 0)

theorem walk_append (q : Option Mark) (depth : Nat) (text rest : List Char) :
    walk q depth (text ++ rest) = (walk q depth text).bind fun s => walk s.1 s.2 rest := by
  induction text generalizing q depth with
  | nil => simp [walk]
  | cons c text ih =>
      cases q with
      | some q => simp only [List.cons_append, walk, ih]
      | none =>
          simp only [List.cons_append, walk, ih]
          split_ifs
          · rfl
          · cases depth <;> simp
          · rfl
          · rfl

/-- The quotes of a part are those of its text alone. -/
theorem quoteAfter_of_walk {q q' : Option Mark} {depth depth' : Nat} {text : List Char}
    (h : walk q depth text = some (q', depth')) : quoteAfter q text = q' := by
  induction text generalizing q depth with
  | nil =>
      rw [walk, Option.some.injEq, Prod.mk.injEq] at h
      exact h.1
  | cons c text ih =>
      rw [quoteAfter_cons]
      cases q with
      | some q => exact ih h
      | none =>
          simp only [walk] at h
          split_ifs at h with hopen hclose
          · rw [hopen]
            exact ih h
          · rw [hclose]
            cases depth with
            | zero => cases h
            | succ depth => exact ih h
          · exact ih h

theorem Closed.quoteAfter_eq {item : List Char} (h : Closed item) : quoteAfter none item = none := quoteAfter_of_walk h

/-! ## Blanks -/

section
variable (blank : Char → Bool)

/-- The words that begin with `word`, which stands before the text. -/
def wordsFrom (word : List Char) : List Char → List (List Char)
  | [] => if word = [] then [] else [word]
  | c :: text =>
      if blank c then if word = [] then wordsFrom [] text else word :: wordsFrom [] text
      else wordsFrom (word ++ [c]) text

/-- The parts between blanks. -/
def words (text : List Char) : List (List Char) := wordsFrom blank [] text

def tokensFrom (q : Option Mark) (token : List Char) : List Char → List (List Char)
  | [] => if token = [] then [] else [token]
  | c :: text =>
      if blank c ∧ q = none then if token = [] then tokensFrom none [] text else token :: tokensFrom none [] text
      else tokensFrom (step q c) (token ++ [c]) text

/-- The parts between blanks that are outside quotes. -/
def tokens (text : List Char) : List (List Char) := tokensFrom blank none [] text

/-- Blanks stand outside quotes only. -/
def NoQuotedBlank : Option Mark → List Char → Prop
  | _, [] => True
  | q, c :: text => (blank c → q = none) ∧ NoQuotedBlank (step q c) text

/-- How many characters are no blanks outside quotes. -/
def kept : Option Mark → List Char → Nat
  | _, [] => 0
  | q, c :: text => (if blank c ∧ q = none then 0 else 1) + kept (step q c) text

/-- Blanks are no marks of the language. -/
def PlainBlanks : Prop := ∀ c, blank c = true → c ∉ ['\'', '"', '`', '[', ']', '(', ')', ',']

end

variable {blank : Char → Bool}

theorem PlainBlanks.step_eq (h : PlainBlanks blank) {c : Char} (hc : blank c = true) (q : Option Mark) : step q c = q := by
  have hplain := h c hc
  simp only [List.mem_cons, not_or] at hplain
  cases q with
  | none => simp [step, Mark.opens, hplain]
  | some m => cases m <;> simp [step, Mark.close, hplain]

theorem PlainBlanks.walk_cons (h : PlainBlanks blank) {c : Char} (hc : blank c = true) (q : Option Mark) (depth : Nat)
    (text : List Char) : walk q depth (c :: text) = walk q depth text := by
  have hstep := h.step_eq hc q
  have hplain := h c hc
  simp only [List.mem_cons, not_or] at hplain
  cases q with
  | none => simp [walk, hstep, hplain]
  | some m => rw [walk, hstep]

/-! ### Words -/

theorem wordsFrom_append_blank {c : Char} (hc : blank c = true) (word text rest : List Char) :
    wordsFrom blank word (text ++ c :: rest) = wordsFrom blank word text ++ words blank rest := by
  induction text generalizing word with
  | nil =>
      by_cases hword : word = []
      · simp [wordsFrom, words, hc, hword]
      · simp [wordsFrom, words, hc, hword]
  | cons d text ih =>
      by_cases hd : blank d = true
      · by_cases hword : word = []
        · simp [wordsFrom, hd, hword, ih]
        · simp [wordsFrom, hd, hword, ih]
      · simp [wordsFrom, hd, ih]

theorem words_append_blank {c : Char} (hc : blank c = true) (text rest : List Char) :
    words blank (text ++ c :: rest) = words blank text ++ words blank rest := wordsFrom_append_blank hc [] text rest

theorem words_blank {c : Char} (hc : blank c = true) (text : List Char) : words blank (c :: text) = words blank text :=
  words_append_blank hc [] text

theorem wordsFrom_of_forall {word text : List Char} (h : ∀ c ∈ text, blank c = false) (hword : word ++ text ≠ []) :
    wordsFrom blank word text = [word ++ text] := by
  induction text generalizing word with
  | nil =>
      rw [List.append_nil] at hword
      rw [wordsFrom, if_neg hword, List.append_nil]
  | cons c text ih =>
      have hc := h c List.mem_cons_self
      have hrest : wordsFrom blank (word ++ [c]) text = [word ++ [c] ++ text] :=
        ih (fun d hd => h d (List.mem_cons_of_mem c hd)) (by simp)
      rw [wordsFrom, if_neg (by simp [hc]), hrest, List.append_assoc, List.singleton_append]

theorem words_of_forall {text : List Char} (h : ∀ c ∈ text, blank c = false) (hne : text ≠ []) :
    words blank text = [text] := wordsFrom_of_forall h hne

theorem mem_wordsFrom {word text v : List Char} (hword : ∀ c ∈ word, blank c = false) (hv : v ∈ wordsFrom blank word text) :
    v ≠ [] ∧ ∀ c ∈ v, blank c = false := by
  induction text generalizing word with
  | nil =>
      rw [wordsFrom] at hv
      split at hv
      · cases hv
      · next hne =>
          obtain rfl := List.mem_singleton.mp hv
          exact ⟨hne, hword⟩
  | cons c text ih =>
      rw [wordsFrom] at hv
      split_ifs at hv with hc hne
      · exact ih (fun d hd => by cases hd) hv
      · rcases List.mem_cons.mp hv with rfl | hv
        · exact ⟨hne, hword⟩
        · exact ih (fun d hd => by cases hd) hv
      · refine ih (fun d hd => ?_) hv
        rcases List.mem_append.mp hd with hd | hd
        · exact hword d hd
        · rw [List.mem_singleton.mp hd]
          exact Bool.eq_false_iff.mpr hc

theorem mem_words {text v : List Char} (hv : v ∈ words blank text) : v ≠ [] ∧ ∀ c ∈ v, blank c = false :=
  mem_wordsFrom (fun c hc => by cases hc) hv

/-- The words of words that a blank stands between. -/
theorem words_intercalate {b : Char} (hb : blank b = true) {ws : List (List Char)}
    (h : ∀ w ∈ ws, w ≠ [] ∧ ∀ c ∈ w, blank c = false) : words blank ([b].intercalate ws) = ws := by
  induction ws with
  | nil => rfl
  | cons w ws ih =>
      have hw := h w List.mem_cons_self
      cases ws with
      | nil =>
          rw [List.intercalate_singleton]
          exact words_of_forall hw.2 hw.1
      | cons v ws =>
          rw [List.intercalate_cons_cons, List.append_assoc, List.singleton_append, words_append_blank hb,
            words_of_forall hw.2 hw.1, ih fun u hu => h u (List.mem_cons_of_mem w hu)]
          rfl

/-! ### Tokens -/

/-- With closed quotes at its end, a text has its blanks outside quotes just when each of its words is closed. -/
theorem noQuotedBlank_iff_wordsFrom (hblank : PlainBlanks blank) {word text : List Char}
    (h : quoteAfter (quoteAfter none word) text = none) :
    NoQuotedBlank blank (quoteAfter none word) text ↔ ∀ v ∈ wordsFrom blank word text, quoteAfter none v = none := by
  induction text generalizing word with
  | nil =>
      rw [wordsFrom]
      split
      · simp [NoQuotedBlank]
      · simpa [NoQuotedBlank] using h
  | cons c text ih =>
      rw [NoQuotedBlank, wordsFrom]
      by_cases hc : blank c = true
      · simp only [hc, if_true, forall_const]
        by_cases hword : quoteAfter none word = none
        · rw [hword, quoteAfter_cons, hblank.step_eq hc] at h
          have hrest := @ih [] h
          rw [hword, hblank.step_eq hc]
          split
          · simpa using hrest
          · simpa [hword] using hrest
        · have hne : word ≠ [] := by
            rintro rfl
            exact hword rfl
          simp [hword, hne]
      · have hrest := @ih (word ++ [c]) (by simpa using h)
        simpa [hc] using hrest

theorem noQuotedBlank_iff (hblank : PlainBlanks blank) {text : List Char} (h : quoteAfter none text = none) :
    NoQuotedBlank blank none text ↔ ∀ v ∈ words blank text, quoteAfter none v = none :=
  @noQuotedBlank_iff_wordsFrom blank hblank [] text h

theorem tokensFrom_eq_wordsFrom (hblank : PlainBlanks blank) {word text : List Char}
    (h : NoQuotedBlank blank (quoteAfter none word) text) :
    tokensFrom blank (quoteAfter none word) word text = wordsFrom blank word text := by
  induction text generalizing word with
  | nil => rfl
  | cons c text ih =>
      rw [NoQuotedBlank] at h
      rw [tokensFrom, wordsFrom]
      by_cases hc : blank c = true
      · have hword := h.1 hc
        have hrest := @ih [] (by simpa [hword, hblank.step_eq hc] using h.2)
        simp [hc, hword, ← hrest]
      · have hrest := @ih (word ++ [c]) (by simpa using h.2)
        simpa [hc] using hrest

theorem tokens_eq_words (hblank : PlainBlanks blank) {text : List Char} (h : NoQuotedBlank blank none text) :
    tokens blank text = words blank text := @tokensFrom_eq_wordsFrom blank hblank [] text h

theorem tokensFrom_append_blank (hblank : PlainBlanks blank) {c : Char} (hc : blank c = true) {q : Option Mark}
    {token text rest : List Char} (h : quoteAfter q text = none) :
    tokensFrom blank q token (text ++ c :: rest) = tokensFrom blank q token text ++ tokens blank rest := by
  induction text generalizing q token with
  | nil =>
      rw [quoteAfter_nil] at h
      subst h
      by_cases htoken : token = []
      · simp [tokensFrom, tokens, hc, htoken]
      · simp [tokensFrom, tokens, hc, htoken]
  | cons d text ih =>
      rw [quoteAfter_cons] at h
      rw [List.cons_append, tokensFrom, tokensFrom]
      by_cases hd : blank d = true ∧ q = none
      · obtain ⟨hd, rfl⟩ := hd
        rw [hblank.step_eq hd] at h
        by_cases htoken : token = []
        · simp [hd, htoken, ih h]
        · simp [hd, htoken, ih h]
      · rw [if_neg hd, if_neg hd, ih h]

/-- Outside quotes a blank ends a token. -/
theorem tokens_append_blank (hblank : PlainBlanks blank) {c : Char} (hc : blank c = true) {text : List Char}
    (h : quoteAfter none text = none) (rest : List Char) :
    tokens blank (text ++ c :: rest) = tokens blank text ++ tokens blank rest := tokensFrom_append_blank hblank hc h

theorem length_flatten_tokensFrom (q : Option Mark) (token text : List Char) (hblank : PlainBlanks blank) :
    (tokensFrom blank q token text).flatten.length = token.length + kept blank q text := by
  induction text generalizing q token with
  | nil =>
      rw [tokensFrom, kept]
      split
      · next h => simp [h]
      · simp
  | cons c text ih =>
      rw [tokensFrom, kept]
      by_cases hc : blank c = true ∧ q = none
      · obtain ⟨hc, rfl⟩ := hc
        rw [hblank.step_eq hc]
        split_ifs with hblankc htoken
        · rw [ih, htoken]
          simp
        · rw [List.flatten_cons, List.length_append, ih]
          simp
        · exact absurd ⟨hc, rfl⟩ hblankc
      · rw [if_neg hc, if_neg hc, ih, List.length_append]
        simp only [List.length_singleton]
        omega

theorem length_flatten_tokens (hblank : PlainBlanks blank) (text : List Char) :
    (tokens blank text).flatten.length = kept blank none text := by
  rw [tokens, length_flatten_tokensFrom none [] text hblank, List.length_nil, Nat.zero_add]

theorem kept_append (q : Option Mark) (text rest : List Char) :
    kept blank q (text ++ rest) = kept blank q text + kept blank (quoteAfter q text) rest := by
  induction text generalizing q with
  | nil => simp [kept]
  | cons c text ih =>
      rw [List.cons_append, kept, kept, ih, quoteAfter_cons]
      omega

/-! ### A quoted blank twice -/

theorem exists_quotedBlank {q : Option Mark} {text : List Char} (h : ¬ NoQuotedBlank blank q text) :
    ∃ before c after, text = before ++ c :: after ∧ blank c = true ∧ quoteAfter q before ≠ none := by
  induction text generalizing q with
  | nil => exact absurd trivial h
  | cons c text ih =>
      rw [NoQuotedBlank, not_and_or] at h
      rcases h with h | h
      · simp only [Classical.not_imp] at h
        exact ⟨[], c, text, rfl, h.1, h.2⟩
      · obtain ⟨before, d, after, rfl, hd, hq⟩ := ih h
        exact ⟨c :: before, d, after, rfl, hd, hq⟩

theorem words_twice {c : Char} (hc : blank c = true) (before after : List Char) :
    words blank (before ++ c :: c :: after) = words blank (before ++ c :: after) := by
  rw [words_append_blank hc, words_append_blank hc, words_blank hc]

theorem walk_twice (hblank : PlainBlanks blank) {c : Char} (hc : blank c = true) (q : Option Mark) (depth : Nat)
    (before after : List Char) : walk q depth (before ++ c :: c :: after) = walk q depth (before ++ c :: after) := by
  rw [walk_append, walk_append]
  simp only [hblank.walk_cons hc]

theorem quoteAfter_twice (hblank : PlainBlanks blank) {c : Char} (hc : blank c = true) (q : Option Mark)
    (before after : List Char) : quoteAfter q (before ++ c :: c :: after) = quoteAfter q (before ++ c :: after) := by
  simp only [quoteAfter_append, quoteAfter_cons, hblank.step_eq hc]

theorem kept_twice (hblank : PlainBlanks blank) {c : Char} (hc : blank c = true) {q : Option Mark}
    {before : List Char} (hq : quoteAfter q before ≠ none) (after : List Char) :
    kept blank q (before ++ c :: c :: after) = kept blank q (before ++ c :: after) + 1 := by
  simp only [kept_append, kept, hblank.step_eq hc, hq, and_false, if_false]
  omega

end CadHarness.Lib.Sql
