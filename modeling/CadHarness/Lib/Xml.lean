import Mathlib.Data.Bool.AllAny
import Mathlib.Data.List.Infix
import Mathlib.Data.Nat.Notation
import Mathlib.Tactic.Linarith

/-!
# XML text

The grammar of XML documents without a declaration and a document type, and writing a document without escapes. A reader
never takes more from a text than is in it, so a text that is no longer than its document has no escapes.
-/

namespace CadHarness.Lib.Xml

/-! ## Characters -/

/-- A character of a document whose line ends are normalized. -/
def IsChar (c : Char) : Prop :=
  c = '\t' ∨ c = '\n' ∨ (0x20 ≤ c.toNat ∧ c.toNat ≠ 0xFFFE ∧ c.toNat ≠ 0xFFFF)

instance : DecidablePred IsChar := fun c =>
  inferInstanceAs (Decidable (c = '\t' ∨ c = '\n' ∨ (0x20 ≤ c.toNat ∧ c.toNat ≠ 0xFFFE ∧ c.toNat ≠ 0xFFFF)))

def isSpace (c : Char) : Bool := c = ' ' ∨ c = '\t' ∨ c = '\n'

def nameStartRanges : List (Nat × Nat) :=
  [(0x3A, 0x3A), (0x41, 0x5A), (0x5F, 0x5F), (0x61, 0x7A), (0xC0, 0xD6), (0xD8, 0xF6), (0xF8, 0x2FF), (0x370, 0x37D),
    (0x37F, 0x1FFF), (0x200C, 0x200D), (0x2070, 0x218F), (0x2C00, 0x2FEF), (0x3001, 0xD7FF), (0xF900, 0xFDCF),
    (0xFDF0, 0xFFFD), (0x10000, 0xEFFFF)]

def nameRanges : List (Nat × Nat) :=
  nameStartRanges ++ [(0x2D, 0x2E), (0x30, 0x39), (0xB7, 0xB7), (0x300, 0x36F), (0x203F, 0x2040)]

def inRanges (ranges : List (Nat × Nat)) (c : Char) : Bool := ranges.any fun r => r.1 ≤ c.toNat ∧ c.toNat ≤ r.2

def isName : List Char → Bool
  | [] => false
  | c :: name => inRanges nameStartRanges c && name.all (inRanges nameRanges)

/-- Text that stands for itself. -/
structure IsCharData (text : List Char) : Prop where
  chars : ∀ c ∈ text, IsChar c ∧ c ≠ '<' ∧ c ≠ '&'
  cdata_end : ¬ "]]>".toList <:+: text

theorem isCharData_iff {text : List Char} :
    IsCharData text ↔ (∀ c ∈ text, IsChar c ∧ c ≠ '<' ∧ c ≠ '&') ∧ ¬ "]]>".toList <:+: text :=
  ⟨fun h => ⟨h.chars, h.cdata_end⟩, fun h => ⟨h.1, h.2⟩⟩

instance (text : List Char) : Decidable (IsCharData text) :=
  have : Decidable (∀ c ∈ text, IsChar c ∧ c ≠ '<' ∧ c ≠ '&') := List.decidableBAll _ text
  decidable_of_iff _ isCharData_iff.symm

/-! ## The grammar -/

/-- A part of the content of an element. -/
inductive Item where
  | char (c : Char)
  | element (name : List Char) (attributes : List (List Char × List Char)) (content : List Item)

def chars (text : List Char) : List Item := text.map .char

def entities : List (List Char × Char) :=
  [("lt".toList, '<'), ("gt".toList, '>'), ("amp".toList, '&'), ("apos".toList, '\''), ("quot".toList, '"')]

def hexValue (c : Char) : Nat :=
  if c.isDigit then c.toNat - '0'.toNat else if c.isLower then c.toNat - 'a'.toNat + 10 else c.toNat - 'A'.toNat + 10

def isHexDigit (c : Char) : Bool := c.isDigit || ('a' ≤ c && c ≤ 'f') || ('A' ≤ c && c ≤ 'F')

/-- A reference to a character, and the character. -/
inductive Reference : List Char → Char → Prop
  | named {name : List Char} {c : Char} (h : (name, c) ∈ entities) : Reference ('&' :: (name ++ [';'])) c
  | decimal {digits : List Char} {c : Char} (hne : digits ≠ []) (hdigits : ∀ d ∈ digits, d.isDigit)
      (hvalue : Nat.ofDigitChars 10 digits 0 = c.toNat) (hchar : IsChar c ∨ c = '\r') :
      Reference ('&' :: '#' :: (digits ++ [';'])) c
  | hexadecimal {digits : List Char} {c : Char} (hne : digits ≠ []) (hdigits : ∀ d ∈ digits, isHexDigit d)
      (hvalue : digits.foldl (fun n d => 16 * n + hexValue d) 0 = c.toNat) (hchar : IsChar c ∨ c = '\r') :
      Reference ('&' :: '#' :: 'x' :: (digits ++ [';'])) c

/-- What stands between the quotes of an attribute, and its value. -/
inductive AttributeText (quote : Char) : List Char → List Char → Prop
  | nil : AttributeText quote [] []
  | char {c : Char} {raw value : List Char} (hchar : IsChar c) (hne : c ≠ '<' ∧ c ≠ '&' ∧ c ≠ quote)
      (h : AttributeText quote raw value) :
      AttributeText quote (c :: raw) ((if isSpace c then ' ' else c) :: value)
  | reference {entity raw value : List Char} {c : Char} (hentity : Reference entity c)
      (h : AttributeText quote raw value) : AttributeText quote (entity ++ raw) (c :: value)

/-- The attributes of a tag, with the blanks around them. -/
inductive Attributes : List Char → List (List Char × List Char) → Prop
  | nil {space : List Char} (hspace : ∀ c ∈ space, isSpace c) : Attributes space []
  | cons {space name before after raw value rest : List Char} {attributes : List (List Char × List Char)} {quote : Char}
      (hne : space ≠ []) (hspace : ∀ c ∈ space, isSpace c) (hname : isName name) (hbefore : ∀ c ∈ before, isSpace c)
      (hafter : ∀ c ∈ after, isSpace c) (hquote : quote = '"' ∨ quote = '\'') (hvalue : AttributeText quote raw value)
      (hrest : Attributes rest attributes) :
      Attributes (space ++ name ++ before ++ '=' :: (after ++ quote :: (raw ++ quote :: rest)))
        ((name, value) :: attributes)

/-- Comments and processing instructions. -/
inductive Aside : List Char → Prop
  | comment {body : List Char} (hchars : ∀ c ∈ body, IsChar c) (hdash : ¬ "--".toList <:+: body)
      (hend : ¬ "-".toList <:+ body) : Aside ("<!--".toList ++ body ++ "-->".toList)
  | instruction {target space body : List Char} (hname : isName target)
      (hxml : target.map Char.toLower ≠ "xml".toList) (hspace : ∀ c ∈ space, isSpace c) (hbody : space = [] → body = [])
      (hchars : ∀ c ∈ body, IsChar c) (hend : ¬ "?>".toList <:+: body) :
      Aside ("<?".toList ++ target ++ space ++ body ++ "?>".toList)

/-- Markup that is no element, and the characters that it stands for. -/
inductive Markup : List Char → List Char → Prop
  | reference {raw : List Char} {c : Char} (h : Reference raw c) : Markup raw [c]
  | cdata {data : List Char} (hchars : ∀ c ∈ data, IsChar c) (hend : ¬ "]]>".toList <:+: data) :
      Markup ("<![CDATA[".toList ++ data ++ "]]>".toList) data
  | aside {raw : List Char} (h : Aside raw) : Markup raw []

inductive Level where
  | element
  | content

/-- An element or the content of one, and what it reads as. -/
inductive Reads : Level → List Char → List Item → Prop
  | empty {name raw : List Char} {attributes : List (List Char × List Char)} (hname : isName name)
      (hattributes : Attributes raw attributes) (hnodup : (attributes.map Prod.fst).Nodup) :
      Reads .element ('<' :: (name ++ raw ++ ['/', '>'])) [.element name attributes []]
  | full {name raw inner space : List Char} {attributes : List (List Char × List Char)} {content : List Item}
      (hname : isName name) (hattributes : Attributes raw attributes) (hnodup : (attributes.map Prod.fst).Nodup)
      (hspace : ∀ c ∈ space, isSpace c) (hcontent : Reads .content inner content) :
      Reads .element ('<' :: (name ++ raw ++ '>' :: (inner ++ ['<', '/'] ++ name ++ space ++ ['>'])))
        [.element name attributes content]
  | text {text : List Char} (htext : IsCharData text) : Reads .content text (chars text)
  | node {text raw rest : List Char} {node items : List Item} (htext : IsCharData text)
    (hnode : Reads .element raw node)
      (hrest : Reads .content rest items) : Reads .content (text ++ raw ++ rest) (chars text ++ node ++ items)
  | markup {text raw data rest : List Char} {items : List Item} (htext : IsCharData text) (hmarkup : Markup raw data)
      (hrest : Reads .content rest items) : Reads .content (text ++ raw ++ rest) (chars text ++ chars data ++ items)

/-- What may stand before and after the root. -/
inductive Misc : List Char → Prop
  | nil : Misc []
  | space {c : Char} {rest : List Char} (hspace : isSpace c) (hrest : Misc rest) : Misc (c :: rest)
  | aside {raw rest : List Char} (haside : Aside raw) (hrest : Misc rest) : Misc (raw ++ rest)

/-- A reader takes each of the line ends for a line feed. -/
def normalizeEnds : List Char → List Char
  | [] => []
  | '\r' :: '\n' :: rest => '\n' :: normalizeEnds rest
  | c :: rest => (if c = '\r' then '\n' else c) :: normalizeEnds rest

/-- The text is a document with this root. -/
def Document (text : List Char) (root : Item) : Prop :=
  ∃ before body after, Misc before ∧ Reads .element body [root] ∧ Misc after ∧
    normalizeEnds text = before ++ body ++ after

/-! ## Writing -/

def renderAttributes (attributes : List (List Char × List Char)) : List Char :=
  attributes.flatMap fun a => ' ' :: (a.1 ++ '=' :: '"' :: (a.2 ++ ['"']))

mutual
/-- An item as it is, without escapes. -/
def Item.render : Item → List Char
  | .char c => [c]
  | .element name attributes [] => '<' :: (name ++ renderAttributes attributes ++ ['/', '>'])
  | .element name attributes (item :: items) =>
      '<' :: (name ++ renderAttributes attributes ++ '>' :: (item.render ++ renderAll items ++ ['<', '/'] ++ name ++
        ['>']))

def renderAll : List Item → List Char
  | [] => []
  | item :: items => item.render ++ renderAll items
end

/-- The characters of an item stand for themselves, wherever an element holds nothing else. -/
inductive Item.Plain : Item → Prop
  | char (c : Char) : Plain (.char c)
  | element {name : List Char} {attributes : List (List Char × List Char)} {content : List Item}
      (htext : ∀ text, content = chars text → IsCharData text) (hcontent : ∀ item ∈ content, item.Plain) :
      Plain (.element name attributes content)

/-! ## A reader takes no more than there is -/

theorem Reference.one_lt_length {raw : List Char} {c : Char} (h : Reference raw c) : 1 < raw.length := by
  cases h <;> simp

theorem AttributeText.length_le {quote : Char} {raw value : List Char} (h : AttributeText quote raw value) :
    value.length ≤ raw.length := by
  induction h with
  | nil => exact le_rfl
  | char hchar hne h ih => simpa using ih
  | reference hentity h ih =>
      have hlong := hentity.one_lt_length
      simp only [List.length_cons, List.length_append]
      omega

theorem Attributes.length_le {raw : List Char} {attributes : List (List Char × List Char)}
    (h : Attributes raw attributes) :
    (renderAttributes attributes).length ≤ raw.length := by
  induction h with
  | nil => exact Nat.zero_le _
  | @cons space name before after raw value rest attributes quote hne hspace hname hbefore hafter hquote hvalue hrest
    ih =>
      have hpos := List.length_pos_of_ne_nil hne
      have hle := hvalue.length_le
      simp only [renderAttributes, List.flatMap_cons, List.length_append, List.length_cons] at ih ⊢
      simp only [List.length_nil]
      omega

theorem Markup.length_lt {raw data : List Char} (h : Markup raw data) : data.length < raw.length := by
  cases h with
  | reference h => exact h.one_lt_length
  | cdata hchars hend =>
      simp only [List.length_append, String.length_toList]
      exact Nat.lt_add_right _ (Nat.lt_add_of_pos_left (by decide))
  | aside h => cases h <;> simp

@[simp] theorem renderAll_append (items others : List Item) :
    renderAll (items ++ others) = renderAll items ++ renderAll others := by
  induction items with
  | nil => rfl
  | cons item items ih => rw [List.cons_append, renderAll, renderAll, ih, List.append_assoc]

@[simp] theorem renderAll_chars (text : List Char) : renderAll (chars text) = text := by
  induction text with
  | nil => rfl
  | cons c text ih => simpa [chars, renderAll, Item.render] using ih

theorem render_element {name : List Char} {attributes : List (List Char × List Char)} {content : List Item}
    (h : content ≠ []) : (Item.element name attributes content).render =
      '<' :: (name ++ renderAttributes attributes ++ '>' :: (renderAll content ++ ['<', '/'] ++ name ++ ['>'])) := by
  cases content with
  | nil => exact absurd rfl h
  | cons item items => rw [Item.render, renderAll]

/-- An element that holds a text. -/
theorem render_text {name text : List Char} {attributes : List (List Char × List Char)} (h : text ≠ []) :
    (Item.element name attributes (chars text)).render =
      '<' :: (name ++ renderAttributes attributes ++ '>' :: (text ++ ['<', '/'] ++ name ++ ['>'])) := by
  rw [render_element (by simpa [chars] using h), renderAll_chars]

theorem chars_injective : Function.Injective chars :=
  List.map_injective_iff.mpr fun _ _ => Item.char.inj

theorem Reads.element_eq {raw : List Char} {items : List Item} (h : Reads .element raw items) :
    ∃ name attributes content, items = [.element name attributes content] := by
  cases h with
  | empty => exact ⟨_, _, _, rfl⟩
  | full => exact ⟨_, _, _, rfl⟩

theorem element_notMem_chars {text : List Char} {name : List Char} {attributes : List (List Char × List Char)}
    {content : List Item} : Item.element name attributes content ∉ chars text := by
  simp [chars]

/-- What a text reads as: it is at least as long when it is written, and if it is not longer, its characters stand for
themselves. -/
structure Fits (level : Level) (raw : List Char) (items : List Item) : Prop where
  length_le : (renderAll items).length ≤ raw.length
  plain : raw.length ≤ (renderAll items).length → ∀ item ∈ items, item.Plain
  text : level = .content → raw.length ≤ (renderAll items).length → ∀ text, items = chars text → IsCharData text

theorem length_render_element {name : List Char} {attributes : List (List Char × List Char)} {content : List Item}
    (h : content ≠ []) : (Item.element name attributes content).render.length =
      (renderAll content).length + 2 * name.length + (renderAttributes attributes).length + 5 := by
  simp only [render_element h, List.length_cons, List.length_append, List.length_nil]
  omega

theorem Reads.fits {level : Level} {raw : List Char} {items : List Item} (h : Reads level raw items) :
    Fits level raw items := by
  induction h with
  | @empty name raw attributes hname hattributes hnodup =>
      have hle := hattributes.length_le
      refine ⟨?_, ?_, fun hlevel => by cases hlevel⟩
      · simp only [renderAll, Item.render, List.append_nil, List.length_cons, List.length_append]
        omega
      · intro _ item hitem
        obtain rfl := List.mem_singleton.mp hitem
        refine .element (fun text heq => ?_) (List.forall_mem_nil _)
        obtain rfl : text = [] := by simpa [chars] using heq.symm
        exact ⟨(List.forall_mem_nil _), (by decide)⟩
  | @full name raw inner space attributes content hname hattributes hnodup hspace hcontent ih =>
      have hle := hattributes.length_le
      have hinner := ih.length_le
      by_cases hempty : content = []
      · subst hempty
        refine ⟨?_, fun hshort => ?_, fun hlevel => by cases hlevel⟩
        · simp only [renderAll, Item.render, List.append_nil, List.length_cons, List.length_append]
          simp
          omega
        · exfalso
          simp only [renderAll, Item.render, List.append_nil, List.length_cons, List.length_append] at hshort
          simp at hshort
          omega
      · refine ⟨?_, fun hshort => ?_, fun hlevel => by cases hlevel⟩
        · simp only [renderAll, List.append_nil, length_render_element hempty, List.length_cons, List.length_append]
          simp
          omega
        · have htight : inner.length ≤ (renderAll content).length := by
            simp only [renderAll, List.append_nil, length_render_element hempty, List.length_cons, List.length_append]
              at hshort
            simp at hshort
            omega
          intro item hitem
          obtain rfl := List.mem_singleton.mp hitem
          exact .element (ih.text rfl htight) (ih.plain htight)
  | @text text htext =>
      refine ⟨by rw [renderAll_chars], fun _ item hitem => ?_, fun _ _ other heq => ?_⟩
      · obtain ⟨c, -, rfl⟩ := List.mem_map.mp hitem
        exact .char c
      · rwa [← chars_injective heq]
  | @node text raw rest node items htext hnode hrest ihnode ihrest =>
      have hlenode := ihnode.length_le
      have hlerest := ihrest.length_le
      have hlength : (renderAll (chars text ++ node ++ items)).length =
          text.length + (renderAll node).length + (renderAll items).length := by simp [Nat.add_assoc]
      refine ⟨?_, fun hshort item hitem => ?_, fun _ hshort other heq => ?_⟩
      · rw [hlength]
        simp only [List.length_append]
        omega
      · rw [hlength] at hshort
        simp only [List.length_append] at hshort
        rcases List.mem_append.mp hitem with hitem | hitem
        · rcases List.mem_append.mp hitem with hitem | hitem
          · obtain ⟨c, -, rfl⟩ := List.mem_map.mp hitem
            exact .char c
          · exact ihnode.plain (by omega) item hitem
        · exact ihrest.plain (by omega) item hitem
      · -- an element is not text
        obtain ⟨name, attributes, content, rfl⟩ := hnode.element_eq
        have hmem : Item.element name attributes content ∈ chars other := by
          rw [← heq]
          simp
        exact absurd hmem element_notMem_chars
  | @markup text raw data rest items htext hmarkup hrest ih =>
      have hlt := hmarkup.length_lt
      have hle := ih.length_le
      have hlength : (renderAll (chars text ++ chars data ++ items)).length =
          text.length + data.length + (renderAll items).length := by simp [Nat.add_assoc]
      refine ⟨?_, fun hshort => ?_, fun _ hshort => ?_⟩
      · rw [hlength]
        simp only [List.length_append]
        omega
      · rw [hlength] at hshort
        simp only [List.length_append] at hshort
        omega
      · rw [hlength] at hshort
        simp only [List.length_append] at hshort
        omega

/-- A document that is no longer than its root holds only characters that stand for themselves. -/
theorem Document.plain {text : List Char} {root : Item} (h : Document text root)
    (hlength : (normalizeEnds text).length ≤ root.render.length) : root.Plain := by
  obtain ⟨before, body, after, -, hbody, -, htext⟩ := h
  rw [htext, List.length_append, List.length_append] at hlength
  refine hbody.fits.plain ?_ root (List.mem_singleton_self root)
  rw [renderAll, renderAll, List.append_nil]
  omega

/-! ## What is written without escapes is read back -/

/-- A value that an attribute has just as it is written. -/
def IsValue (value : List Char) : Prop :=
  ∀ c ∈ value, IsChar c ∧ c ≠ '<' ∧ c ≠ '&' ∧ c ≠ '"' ∧ c ≠ '\t' ∧ c ≠ '\n'

instance (value : List Char) : Decidable (IsValue value) :=
  List.decidableBAll (fun c => IsChar c ∧ c ≠ '<' ∧ c ≠ '&' ∧ c ≠ '"' ∧ c ≠ '\t' ∧ c ≠ '\n') value

theorem IsValue.append {value other : List Char} (h : IsValue value) (hother : IsValue other) :
    IsValue (value ++ other) :=
  fun c hc => (List.mem_append.mp hc).elim (h c) (hother c)

/-- The name and the attributes of a tag. -/
structure IsTag (name : List Char) (attributes : List (List Char × List Char)) : Prop where
  isName_name : isName name
  isValue : ∀ a ∈ attributes, isName a.1 ∧ IsValue a.2
  nodup : (attributes.map Prod.fst).Nodup

theorem attributeText_self {value : List Char} (h : IsValue value) : AttributeText '"' value value := by
  induction value with
  | nil => exact .nil
  | cons c value ih =>
      obtain ⟨hchar, hlt, hamp, hquote, htab, hend⟩ := h c List.mem_cons_self
      have hrest := AttributeText.char hchar ⟨hlt, hamp, hquote⟩ (ih fun d hd => h d (List.mem_cons_of_mem c hd))
      have hblank : (if isSpace c then ' ' else c) = c := by
        split_ifs with hspace
        · simp only [isSpace, htab, hend, or_false, decide_eq_true_eq] at hspace
          exact hspace.symm
        · rfl
      rwa [hblank] at hrest

theorem attributes_render {attributes : List (List Char × List Char)} (h : ∀ a ∈ attributes, isName a.1 ∧ IsValue a.2) :
    Attributes (renderAttributes attributes) attributes := by
  induction attributes with
  | nil => exact .nil (List.forall_mem_nil _)
  | cons a attributes ih =>
      obtain ⟨hname, hvalue⟩ := h a List.mem_cons_self
      have hrest := ih fun b hb => h b (List.mem_cons_of_mem a hb)
      have hnone : ∀ c ∈ ([] : List Char), isSpace c := List.forall_mem_nil _
      have hcons := Attributes.cons (List.cons_ne_nil ' ' []) (List.forall_mem_singleton.mpr rfl) hname hnone hnone
        (.inl rfl) (attributeText_self hvalue) hrest
      simpa [renderAttributes] using hcons

namespace IsTag

variable {name text : List Char} {attributes : List (List Char × List Char)} {content : List Item}

theorem reads_empty (h : IsTag name attributes) :
    Reads .element (Item.element name attributes []).render [.element name attributes []] :=
  .empty h.isName_name (attributes_render h.isValue) h.nodup

theorem reads_full (h : IsTag name attributes) (hne : content ≠ [])
    (hcontent : Reads .content (renderAll content) content) :
    Reads .element (Item.element name attributes content).render [.element name attributes content] := by
  have hnone : ∀ c ∈ ([] : List Char), isSpace c := List.forall_mem_nil _
  have hfull := Reads.full h.isName_name (attributes_render h.isValue) h.nodup hnone hcontent
  rw [render_element hne]
  simpa using hfull

theorem reads_text (h : IsTag name attributes) (hne : text ≠ []) (htext : IsCharData text) :
    Reads .element (Item.element name attributes (chars text)).render [.element name attributes (chars text)] := by
  refine h.reads_full (by simpa [chars] using hne) ?_
  rw [renderAll_chars]
  exact .text htext

end IsTag

/-- Elements, each on a line of its own. -/
def onLines (elements : List Item) : List Item := elements.flatMap fun e => [.char '\n', e]

theorem renderAll_onLines (elements : List Item) :
    renderAll (onLines elements) = (elements.map Item.render).flatMap fun e => '\n' :: e := by
  induction elements with
  | nil => rfl
  | cons e elements ih =>
      rw [onLines, List.flatMap_cons, ← onLines, renderAll_append, ih]
      simp [renderAll, Item.render]

/-- Texts with line feeds between them. -/
theorem intercalate_newline (text : List Char) (texts : List (List Char)) :
    List.intercalate ['\n'] (text :: texts) = text ++ texts.flatMap fun t => '\n' :: t := by
  induction texts generalizing text with
  | nil => simp
  | cons t texts ih => rw [List.intercalate_cons_cons, ih, List.flatMap_cons, List.append_assoc]; rfl

theorem isCharData_newline : IsCharData ['\n'] := by decide

theorem reads_onLines {elements : List Item} (helements : ∀ e ∈ elements, Reads .element e.render [e])
    {ending : List Char}
    (hending : IsCharData ending) :
    Reads .content (renderAll (onLines elements ++ chars ending)) (onLines elements ++ chars ending) := by
  induction elements with
  | nil => simpa [onLines] using Reads.text hending
  | cons e elements ih =>
      have hnode := Reads.node isCharData_newline (helements e List.mem_cons_self)
        (ih fun d hd => helements d (List.mem_cons_of_mem e hd))
      simpa [onLines, chars, renderAll, Item.render] using hnode

theorem document_render {text : List Char} {root : Item} (htext : normalizeEnds text = root.render)
    (h : Reads .element root.render [root]) : Document text root :=
  ⟨[], root.render, [], .nil, h, .nil, by rw [htext, List.nil_append, List.append_nil]⟩

/-! ## Line ends -/

theorem return_notMem_of_isChar {text : List Char} (h : ∀ c ∈ text, IsChar c) : '\r' ∉ text :=
  fun hmem => absurd (h _ hmem) (by decide)

theorem return_notMem_of_isSpace {text : List Char} (h : ∀ c ∈ text, isSpace c) : '\r' ∉ text :=
  fun hmem => absurd (h _ hmem) (by decide)

theorem return_notMem_of_isName {name : List Char} (h : isName name) : '\r' ∉ name := by
  intro hmem
  cases name with
  | nil => cases hmem
  | cons c name =>
      simp only [isName, Bool.and_eq_true, List.all_eq_true] at h
      rcases List.mem_cons.mp hmem with rfl | hmem
      · exact absurd h.1 (by decide)
      · exact absurd (h.2 _ hmem) (by decide)

theorem Reference.return_notMem {raw : List Char} {c : Char} (h : Reference raw c) : '\r' ∉ raw := by
  cases h with
  | named h =>
      simp only [entities, List.mem_cons, Prod.mk.injEq, List.not_mem_nil, or_false] at h
      rcases h with ⟨rfl, rfl⟩ | ⟨rfl, rfl⟩ | ⟨rfl, rfl⟩ | ⟨rfl, rfl⟩ | ⟨rfl, rfl⟩ <;> decide
  | @decimal digits _ hne hdigits hvalue hchar =>
      have hdigit : '\r' ∉ digits := fun hmem => absurd (hdigits '\r' hmem) (by decide)
      simpa using hdigit
  | @hexadecimal digits _ hne hdigits hvalue hchar =>
      have hdigit : '\r' ∉ digits := fun hmem => absurd (hdigits '\r' hmem) (by decide)
      simpa using hdigit

theorem AttributeText.return_notMem {quote : Char} {raw value : List Char} (h : AttributeText quote raw value) :
    '\r' ∉ raw := by
  induction h with
  | nil => exact List.not_mem_nil
  | char hchar hne h ih =>
      rw [List.mem_cons, not_or]
      refine ⟨?_, ih⟩
      rintro rfl
      exact absurd hchar (by decide)
  | reference hentity h ih =>
      rw [List.mem_append, not_or]
      exact ⟨hentity.return_notMem, ih⟩

theorem Attributes.return_notMem {raw : List Char} {attributes : List (List Char × List Char)}
    (h : Attributes raw attributes) :
    '\r' ∉ raw := by
  induction h with
  | nil hspace => exact return_notMem_of_isSpace hspace
  | @cons space name before after raw value rest attributes quote hne hspace hname hbefore hafter hquote hvalue hrest
    ih =>
      have hreturn : '\r' ≠ quote := by rcases hquote with rfl | rfl <;> decide
      simp [return_notMem_of_isSpace hspace, return_notMem_of_isName hname, return_notMem_of_isSpace hbefore,
        return_notMem_of_isSpace hafter, hreturn, hvalue.return_notMem, ih]

theorem Aside.return_notMem {raw : List Char} (h : Aside raw) : '\r' ∉ raw := by
  cases h with
  | comment hchars hdash hend => simp [return_notMem_of_isChar hchars]
  | instruction hname hxml hspace hbody hchars hend =>
      simp [return_notMem_of_isName hname, return_notMem_of_isSpace hspace, return_notMem_of_isChar hchars]

theorem Markup.return_notMem {raw data : List Char} (h : Markup raw data) : '\r' ∉ raw := by
  cases h with
  | reference h => exact h.return_notMem
  | cdata hchars hend => simp [return_notMem_of_isChar hchars]
  | aside h => exact h.return_notMem

/-- A text that is read has no carriage returns. -/
theorem Reads.return_notMem {level : Level} {raw : List Char} {items : List Item} (h : Reads level raw items) :
    '\r' ∉ raw := by
  induction h with
  | empty hname hattributes hnodup => simp [return_notMem_of_isName hname, hattributes.return_notMem]
  | full hname hattributes hnodup hspace hcontent ih =>
      simp [return_notMem_of_isName hname, hattributes.return_notMem, return_notMem_of_isSpace hspace, ih]
  | text htext => exact return_notMem_of_isChar fun c hc => (htext.chars c hc).1
  | node htext hnode hrest ihnode ihrest =>
      simp [return_notMem_of_isChar fun c hc => (htext.chars c hc).1, ihnode, ihrest]
  | markup htext hmarkup hrest ih =>
      simp [return_notMem_of_isChar fun c hc => (htext.chars c hc).1, hmarkup.return_notMem, ih]

/-- What a file of text holds when its lines end in both characters. -/
def writeEnds (text : List Char) : List Char := text.flatMap fun c => if c = '\n' then ['\r', '\n'] else [c]

theorem normalizeEnds_eq {text : List Char} (h : '\r' ∉ text) : normalizeEnds text = text := by
  induction text with
  | nil => rfl
  | cons c text ih =>
      rw [List.mem_cons, not_or] at h
      rw [normalizeEnds, ih h.2, if_neg (Ne.symm h.1)]
      intro rest hc
      exact absurd hc.symm h.1

theorem normalizeEnds_writeEnds {text : List Char} (h : '\r' ∉ text) : normalizeEnds (writeEnds text) = text := by
  induction text with
  | nil => rfl
  | cons c text ih =>
      rw [List.mem_cons, not_or] at h
      have htail := ih h.2
      rw [writeEnds, List.flatMap_cons, ← writeEnds]
      split_ifs with hc
      · rw [List.cons_append, List.cons_append, List.nil_append, normalizeEnds, htail, hc]
      · rw [List.cons_append, List.nil_append, normalizeEnds, htail, if_neg (Ne.symm h.1)]
        intro rest hc
        exact absurd hc.symm h.1

theorem length_normalizeEnds_le (text : List Char) : (normalizeEnds text).length ≤ text.length := by
  fun_induction normalizeEnds text with
  | case1 => exact le_rfl
  | case2 rest ih =>
      simp only [List.length_cons]
      omega
  | case3 c rest hne ih => simpa using ih

theorem length_normalizeEnds_cons_le (c : Char) (text : List Char) :
    (normalizeEnds (c :: text)).length ≤ (normalizeEnds text).length + 1 := by
  by_cases hends : c = '\r' ∧ ∃ rest, text = '\n' :: rest
  · obtain ⟨rfl, rest, rfl⟩ := hends
    have hrest : normalizeEnds ('\n' :: rest) = '\n' :: normalizeEnds rest := by simp [normalizeEnds]
    rw [normalizeEnds, hrest]
    simp
  · rw [normalizeEnds, List.length_cons]
    intro rest hc htext
    exact hends ⟨hc, rest, htext⟩

theorem length_normalizeEnds_writeEnds_le (text : List Char) :
    (normalizeEnds (writeEnds text)).length ≤ text.length := by
  induction text with
  | nil => exact le_rfl
  | cons c text ih =>
      rw [writeEnds, List.flatMap_cons, ← writeEnds]
      split_ifs with hc
      · rw [List.cons_append, List.cons_append, List.nil_append, normalizeEnds]
        simpa using ih
      · exact (length_normalizeEnds_cons_le c (writeEnds text)).trans (Nat.succ_le_succ ih)

end CadHarness.Lib.Xml
